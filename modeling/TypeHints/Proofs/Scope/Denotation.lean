import TypeHints.Proofs.ClassName
import TypeHints.Proofs.World.Aliases
import TypeHints.Proofs.World.Names
import TypeHints.Proofs.World.Query
import TypeHints.Scope.Declared

/-!
A scope keeps the last segments of its class names and reads them back through its aliases and its
namespace. `ReadsBack` tells which names come back; `scopes_denote` says of every scope that is made
of a declaration that it denotes its classes exactly if their names do.
-/
namespace TypeHints

namespace Scope
open ClassName

variable {w : World}

/-! ### Names read back -/

/-- Whether the last segment of a name stands for the name again, at home in a class: an alias has to
lead there, and without one the namespace has to be that of the class. -/
def ReadsBack (aliases : Keyed String String) (home name : String) : Prop :=
  match aliases.find? (short name) with
  | some target => stripRoot target = name
  | none => trimBackslashes (ClassName.space home) = ClassName.space name

theorem trimBackslashes_unrooted (name : String) :
    (trimBackslashes name).toList.head? ≠ some '\\' := by
  intro rooted
  have inner := List.head?_dropWhile_not (· = '\\') name.toList
  have kept := List.takeWhile_append_dropWhile (p := (· = '\\'))
    (l := (name.toList.dropWhile (· = '\\')).reverse)
  have parts := congrArg List.reverse kept
  rw [List.reverse_append, List.reverse_reverse] at parts
  rw [trimBackslashes, String.toList_ofList] at rooted
  rw [← parts, List.head?_append, rooted] at inner
  cases inner

def IsIn (home : String) (s : Scope) : Prop :=
  s.space = if trimBackslashes (ClassName.space home) = "" then none
    else some (trimBackslashes (ClassName.space home))

theorem isIn_withSpace (s : Scope) (home : String) (uses : Keyed String String) :
    IsIn home { s.withSpace (ClassName.space home) with uses } := by
  unfold IsIn withSpace
  dsimp only

theorem IsIn.qualify_segment {home word : String} {s : Scope} (inside : s.IsIn home)
    (segment : IsSegment word) :
    s.qualify word = match s.uses.find? word with
      | some target => target
      | none => within (trimBackslashes (ClassName.space home)) word := by
  simp only [qualify, if_neg segment.unrooted, segment.splitFirst]
  cases s.uses.find? word with
  | some target => rfl
  | none =>
    unfold IsIn at inside
    unfold within
    split at inside
    next global => rw [inside, if_pos global]
    next other => rw [inside, if_neg other]

theorem IsIn.readsBack_iff {home name : String} {s : Scope} (inside : s.IsIn home)
    (unrooted : stripRoot name = name) :
    stripRoot (s.qualify (short name)) = name ↔ ReadsBack s.uses home name := by
  rw [inside.qualify_segment (short_isSegment name), ReadsBack]
  cases s.uses.find? (short name) with
  | some target => exact Iff.rfl
  | none =>
    have same : within (trimBackslashes (ClassName.space home)) (short name) =
        within (ClassName.space name) (short name) ↔ _ := within_inj
    rw [within_space_short unrooted] at same
    rw [stripRoot_within (trimBackslashes_unrooted _) (short_isSegment name), same]

/-! ### Scopes of declarations -/

/-- What a scope that is made for two classes keeps of them, and which of them it denotes then. -/
structure Denotes (w : World) (c d : ClassDecl) (s : Scope) : Prop where
  declaringName : s.declaring = short c.name
  calledName : s.called = short d.name
  home : s.IsIn c.name
  uses : w.table.aliasesOf w.fileAliases c = .ok s.uses
  declaring : stripRoot s.declaringClass = c.name ↔ ReadsBack s.uses c.name c.name
  called : stripRoot s.calledClass = d.name ↔ ReadsBack s.uses c.name d.name

theorem denotes_of_isIn {c d : ClassDecl} {s : Scope} (unrooted : stripRoot c.name = c.name)
    (unrootedD : stripRoot d.name = d.name)
    (read : w.table.aliasesOf w.fileAliases c = .ok s.uses) (inside : s.IsIn c.name)
    (declaring : s.declaring = short c.name) (called : s.called = short d.name) :
    Denotes w c d s := by
  refine ⟨declaring, called, inside, read, ?_, ?_⟩
  · rw [declaringClass, declaring]
    exact inside.readsBack_iff unrooted
  · rw [calledClass, called]
    exact inside.readsBack_iff unrootedD

theorem Denotes.templates {c d : ClassDecl} {s : Scope} (h : Denotes w c d s)
    (templates : Keyed String Ty) : Denotes w c d { s with templates } :=
  { h with }

theorem bareOf_denotes {c d : ClassDecl} (unrooted : stripRoot c.name = c.name)
    (unrootedD : stripRoot d.name = d.name) :
    (bareOf c (short d.name) (short c.name)).Gives w (Denotes w c d) := by
  refine (Query.gives_aliasesOf c).bind fun uses read => Query.gives_pure ?_
  exact denotes_of_isIn unrooted unrootedD read (isIn_withSpace _ _ _) rfl rfl

theorem ofClass_denotes (templated : Bool) {c : ClassDecl} (unrooted : stripRoot c.name = c.name) :
    (ofClass templated c).Gives w (Denotes w c c) := by
  refine (bareOf_denotes unrooted unrooted).bind fun s denotes => ?_
  exact (Query.gives_any _).bind fun templates _ => Query.gives_pure (denotes.templates templates)

/-- A scope that is made of a registered class or of a member denotes the class, and one that is made
of two names denotes both, exactly if the names are read back. -/
theorem scopes_denote (templated : Bool) {c d : ClassDecl} (registered : w.find? c.name = some c)
    (registeredD : w.find? d.name = some d) :
    (ofClass templated c).Gives w (Denotes w c c) ∧
    (∀ p : PropertyDecl, w.find? p.declaringClass = some c →
      (ofProperty templated p).Gives w (Denotes w c c)) ∧
    (∀ (f : FunctionDecl) (declaring : String), f.declaringClass = some declaring →
      w.find? declaring = some c →
      (ofFunction templated f).Gives w fun scope => ∃ s, scope = some s ∧ Denotes w c c s) ∧
    (ofClassName templated d.name (some c.name)).Gives w (Denotes w c d) := by
  have unrooted := (ClassTable.name_of_find? registered).2
  have unrootedD := (ClassTable.name_of_find? registeredD).2
  refine ⟨ofClass_denotes templated unrooted, ?_, ?_, ?_⟩
  · intro p declares
    refine (Query.gives_theClass p.declaringClass).bind fun c' found => ?_
    obtain rfl : c = c' := by simpa [declares] using found
    exact ofClass_denotes templated unrooted
  · intro f declaring given declares
    simp only [ofFunction, given]
    refine (Query.gives_theClass declaring).bind fun c' found => ?_
    obtain rfl : c = c' := by simpa [declares] using found
    refine (bareOf_denotes unrooted unrooted).bind fun s denotes => ?_
    refine (Query.gives_any _).bind fun own _ => ?_
    refine (Query.gives_any _).bind fun inherited _ => Query.gives_pure ?_
    exact ⟨_, rfl, denotes.templates _⟩
  · refine (Query.gives_theClass c.name).bind fun c' found => ?_
    obtain rfl : c = c' := by simpa [registered] using found
    refine (bareOf_denotes unrooted unrootedD).bind fun s denotes => ?_
    exact (Query.gives_any _).bind fun templates _ => Query.gives_pure (denotes.templates templates)

/-- A trait imports a class of another namespace under the name of the class that uses it. -/
def logs : ClassDecl :=
  { name := "App\\Logs", kind := .trait, uses := Keyed.empty.put "User" "Vendor\\User" }

def user : ClassDecl := { name := "App\\User", traits := ["App\\Logs"] }

def guest : ClassDecl := { name := "App\\Guest" }

def office : World where
  table := ClassTable.empty.insertAll [logs, user, guest]

theorem office_aliases :
    (Query.aliasesOf guest).Settles office (.ok Keyed.empty) ∧
      (Query.aliasesOf user).Settles office (.ok logs.uses) := by
  have ofGuest : (Query.aliasesOf guest).Settles office (.ok Keyed.empty) :=
    ClassTable.settles_aliasesOf_of_traits_nil rfl
  have order : office.table.traitOrder user.name = [user, logs] := by
    have ofLogs : (ClassTable.visit [("app\\logs", logs), ("app\\guest", guest)] ["App\\Logs"]).1 =
        [logs] := by
      rw [ClassTable.visit_step (c := logs) rfl]
      exact congrArg (fun r => logs :: r.1) (ClassTable.visit_nil _)
    rw [ClassTable.traitOrder, ClassTable.visit_step (c := user) rfl]
    exact congrArg (user :: ·) ofLogs
  have registered : office.table.find? user.name = some user := rfl
  have ofUser : office.table.aliasesOf office.fileAliases user = .ok logs.uses := by
    rw [ClassTable.aliasesOf_eq registered, order]
    rfl
  exact ⟨ofGuest, ofUser ▸ Query.settles_aliasesOf user⟩

theorem scopes_denote_office : ∃ s,
    (ofClassName true user.name (some guest.name) office {}).1 = .ok s ∧
      stripRoot s.declaringClass = "App\\Guest" ∧ stripRoot s.calledClass = "App\\User" := by
  have found : (Query.theClass guest.name).Settles office (.ok guest) :=
    Query.settles_theClass guest.name
  have made : (ofClassName true user.name (some guest.name)).Settles office
      (.ok { called := "User", declaring := "Guest", space := some "App" }) := by
    refine found.bind (Query.Settles.bind (office_aliases.1.bind (Query.settles_pure _)) ?_)
    exact (Query.settles_pure Keyed.empty).bind (Query.settles_pure _)
  have answer := (made {} (Memory.empty_isFaithful _)).1
  obtain ⟨-, -, -, denotes⟩ := scopes_denote (w := office) true (c := guest) (d := user) rfl rfl
  have sound := denotes {} _ answer
  exact ⟨_, answer, sound.declaring.mpr rfl, sound.called.mpr rfl⟩

/-- A scope of the class with that trait denotes the class of the other namespace. -/
theorem scope_strays : office.find? user.name = some user ∧ ∃ s,
    (ofClass true user office {}).1 = .ok s ∧ stripRoot s.declaringClass ≠ user.name := by
  have made : (ofClass true user).Settles office
      (.ok { called := "User", declaring := "User", space := some "App", uses := logs.uses }) := by
    refine Query.Settles.bind (office_aliases.2.bind (Query.settles_pure _)) ?_
    exact (Query.settles_pure Keyed.empty).bind (Query.settles_pure _)
  exact ⟨rfl, _, (made {} (Memory.empty_isFaithful _)).1, by decide⟩

end Scope

end TypeHints
