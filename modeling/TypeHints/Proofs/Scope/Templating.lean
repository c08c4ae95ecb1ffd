import TypeHints.Proofs.Keyed
import TypeHints.Proofs.Resolve.Canonical
import TypeHints.Proofs.Scope.Templates
import TypeHints.Proofs.World.Aliases

namespace TypeHints.Scope
open Resolve Query

variable {w : World}

/-! ### Tags of one doc comment -/

/-- What a bound stands for in a scope. -/
inductive Binds (w : World) (scope : Scope) : (bound : Option String) → Ty → Prop
  | absent : Binds w scope none .mixed
  | unsupported {text : String} {f : Failure}
      (fails : (resolveHint (some scope) text).Settles w (.error f)) (unsupported : f.isUnsupported = true) :
      Binds w scope (some text) .mixed
  | resolved {text : String} {t : Ty} (settles : (resolveHint (some scope) text).Settles w (.ok t)) :
      Binds w scope (some text) t

theorem templateBound_binds {scope : Scope} {bound : Option String} {t : Ty}
    (h : (templateBound scope bound).Settles w (.ok t)) : Binds w scope bound t := by
  cases bound with
  | none =>
    cases h.unique (settles_pure _)
    exact .absent
  | some text =>
    obtain ⟨outcome, settles⟩ := resolveHint_steady (w := w) (some scope) text
    have same := h.unique (templateBound_settles settles)
    cases outcome with
    | ok u =>
      cases same
      exact .resolved settles
    | error f =>
      dsimp only at same
      split at same
      next unsupported =>
        cases same
        exact .unsupported settles unsupported
      next => cases same

def IsLast (tags : List TemplateTag) (x : String) (tag : TemplateTag) : Prop :=
  (tags.filter (·.name = x)).getLast? = some tag

theorem IsLast.of_cons {tag last : TemplateTag} {rest : List TemplateTag} {x : String}
    (h : IsLast (tag :: rest) x last) :
    IsLast rest x last ∨ (tag.name = x ∧ last = tag ∧ ∀ other ∈ rest, other.name ≠ x) := by
  unfold IsLast at h ⊢
  by_cases same : tag.name = x
  · rw [List.filter_cons_of_pos (by simpa using same), List.getLast?_cons] at h
    cases ends : (rest.filter (·.name = x)).getLast? with
    | some again =>
      rw [ends] at h
      exact .inl h
    | none =>
      rw [ends] at h
      have absent : ∀ other ∈ rest, other.name ≠ x := by
        simpa [List.filter_eq_nil_iff] using ends
      exact .inr ⟨same, (Option.some.inj h).symm, absent⟩
  · rw [List.filter_cons_of_neg (by simpa using same)] at h
    exact .inl h

/-- What the tags make of the templates that were there. -/
structure Collected (w : World) (scope : Scope) (tags : List TemplateTag)
    (found templates : Keyed String Ty) : Prop where
  keys : templates.keys = (tags.map TemplateTag.name).foldl Keyed.arrive found.keys
  named : ∀ x tag, IsLast tags x tag → ∃ t, Binds w scope tag.bound t ∧ templates.find? x = some t
  other : ∀ x, (∀ tag ∈ tags, tag.name ≠ x) → templates.find? x = found.find? x

theorem collectTemplates_collected {scope : Scope} {tags : List TemplateTag}
    {found templates : Keyed String Ty}
    (h : (collectTemplates scope tags found).Settles w (.ok templates)) :
    Collected w scope tags found templates := by
  induction tags generalizing found with
  | nil =>
    cases h.unique (settles_pure found)
    exact ⟨rfl, nofun, fun _ _ => rfl⟩
  | cons tag rest ih =>
    obtain ⟨bound, binds, others⟩ :=
      (templateBound_steady scope tag).bind_ok (fun _ => collectTemplates_steady scope rest _) h
    have later := ih others
    refine ⟨?_, ?_, ?_⟩
    · rw [later.keys, Keyed.keys_put]
      rfl
    · intro x last here
      rcases here.of_cons with behind | ⟨same, rfl, absent⟩
      · exact later.named x last behind
      · refine ⟨bound, templateBound_binds binds, ?_⟩
        rw [later.other x absent, same, Keyed.find?_put_self]
    · intro x none
      obtain ⟨first, absent⟩ := List.forall_mem_cons.mp none
      rw [later.other x absent, Keyed.find?_put_of_ne _ _ (Ne.symm first)]

theorem docTemplates_collected {scope : Scope} {docComment : Option String} {templates : Keyed String Ty}
    (h : (docTemplates true scope docComment).Settles w (.ok templates)) :
    Collected w scope (templateTags docComment) Keyed.empty templates := by
  cases docComment with
  | none =>
    cases h.unique (settles_pure Keyed.empty)
    exact ⟨rfl, nofun, fun _ _ => rfl⟩
  | some comment =>
    simp only [docTemplates, if_true] at h
    exact collectTemplates_collected h

theorem Collected.keys_eq {scope : Scope} {tags : List TemplateTag} {templates : Keyed String Ty}
    (h : Collected w scope tags Keyed.empty templates) :
    templates.keys = (tags.map TemplateTag.name).eraseDups := by
  have all : (tags.map TemplateTag.name).filter (· ∉ (Keyed.empty : Keyed String Ty).keys) =
      tags.map TemplateTag.name := List.filter_eq_self.mpr fun _ _ => by simp [Keyed.empty, Keyed.keys]
  rw [h.keys, Keyed.foldl_arrive, all]
  rfl

/-! ### Scopes -/

theorem bareOf_bare (c : ClassDecl) (called declaring : String) :
    (bareOf c called declaring).Gives w fun s => s.templates = Keyed.empty :=
  (gives_any _).bind fun _ _ => gives_pure rfl

theorem ofFunction_made {c : ClassDecl} {f : FunctionDecl} {declaring : String} {s : Scope}
    (registered : w.find? declaring = some c) (declares : f.declaringClass = some declaring)
    (h : (ofFunction true f).Settles w (.ok (some s))) :
    ∃ base own inherited, (bareOf c (ClassName.short c.name) (ClassName.short c.name)).Settles w (.ok base) ∧
      (docTemplates true base f.docComment).Settles w (.ok own) ∧
      (docTemplates true base c.docComment).Settles w (.ok inherited) ∧
      s = { base with templates := own.putMissing inherited } := by
  simp only [ofFunction, declares] at h
  have found := settles_theClass (w := w) declaring
  rw [registered] at found
  have rest (c : ClassDecl) := (bareOf_steady (w := w) c (ClassName.short c.name)
    (ClassName.short c.name)).bind fun scope _ => withTemplates_steady true scope f.docComment c.docComment
  obtain ⟨c', found', h⟩ := Steady.bind_ok ⟨_, found⟩ rest h
  cases found.unique found'
  obtain ⟨base, bare, h⟩ := (bareOf_steady c _ _).bind_ok
    (fun scope => withTemplates_steady true scope f.docComment c.docComment) h
  obtain ⟨own, ofMethod, h⟩ := (docTemplates_steady true base f.docComment).bind_ok
    (fun _ => (docTemplates_steady true base c.docComment).bind fun _ _ => steady_pure _) h
  obtain ⟨inherited, ofClass, h⟩ :=
    (docTemplates_steady true base c.docComment).bind_ok (fun _ => steady_pure _) h
  cases h.unique (settles_pure _)
  exact ⟨base, own, inherited, bare, ofMethod, ofClass, rfl⟩

/-- A method has a scope only if its class does. They differ in the templates. The last tag of the method
for a name decides, and without one the class does. The names of the method come first, in the order of
their first tags, and then the others of the class. -/
theorem ofFunction_templates {c : ClassDecl} {f : FunctionDecl} {declaring : String} {m : Memory}
    {s : Scope} (registered : w.find? declaring = some c) (declares : f.declaringClass = some declaring)
    (faithful : m.IsFaithful w) (made : (ofFunction true f w m).1 = .ok (some s)) :
    ∃ s₀, (ofClass true c).Settles w (.ok s₀) ∧
      s = { s₀ with templates := s.templates } ∧
      s.calledClass = s₀.calledClass ∧ s.declaringClass = s₀.declaringClass ∧
      (∀ x tag, IsLast (templateTags f.docComment) x tag → ∃ t,
        Binds w { s₀ with templates := Keyed.empty } tag.bound t ∧ s.templates.find? x = some t) ∧
      (∀ x, (∀ tag ∈ templateTags f.docComment, tag.name ≠ x) →
        s.templates.find? x = s₀.templates.find? x) ∧
      let names := ((templateTags f.docComment).map TemplateTag.name).eraseDups
      s.templates.keys = names ++ s₀.templates.keys.filter (· ∉ names) := by
  have settles : (ofFunction true f).Settles w (.ok (some s)) := by
    obtain ⟨outcome, settles⟩ := ofFunction_steady (w := w) true f
    have same := (settles m faithful).1
    rw [made] at same
    rwa [← same] at settles
  obtain ⟨base, own, inherited, bare, ofMethod, ofClass, rfl⟩ :=
    ofFunction_made registered declares settles
  have empty := bareOf_bare c _ _ {} base (bare {} (Memory.empty_isFaithful w)).1
  obtain ⟨called, declaring, space, uses, templates⟩ := base
  obtain rfl : templates = Keyed.empty := empty
  have collected := docTemplates_collected ofMethod
  refine ⟨_, bare.bind (ofClass.bind (settles_pure _)), rfl, rfl, rfl, fun x tag last => ?_,
    fun x none => ?_, ?_⟩
  · obtain ⟨t, binds, found⟩ := collected.named x tag last
    refine ⟨t, binds, ?_⟩
    rw [Keyed.find?_putMissing, found]
    rfl
  · rw [Keyed.find?_putMissing, collected.other x none]
    rfl
  · rw [← collected.keys_eq]
    exact Keyed.keys_putMissing own inherited

def loft : ClassDecl :=
  { name := "Loft", docComment := some "/** @template T of int\n * @template U */" }

def stairs : FunctionDecl where
  name := "stairs"
  declaringClass := some "\\loft"
  docComment := some "/** @template V\n * @template T\n * @template V of int */"

def attic : World where
  table := ClassTable.empty.insertAll [loft]

theorem attic_bare : (bareOf loft (ClassName.short loft.name) (ClassName.short loft.name)).Settles attic
    (.ok { called := "Loft", declaring := "Loft" }) := by
  have read : (aliasesOf loft).Settles attic (.ok Keyed.empty) :=
    ClassTable.settles_aliasesOf_of_traits_nil rfl
  exact read.bind (settles_pure _)

theorem attic_int (scope : Scope) : (templateBound scope (some "int")).Settles attic (.ok .int) := by
  have given : Hint.read "int" = .ok (.name "int") := Hint.read_name (by decide)
  have named : (resolveName (some scope) "int").Settles attic (.ok .int) := resolveName_keyword rfl rfl
  exact (resolveHint_of_read given named).attempt.bind (settles_pure _)

theorem stairs_tags :
    templateTags stairs.docComment = [⟨"V", none⟩, ⟨"T", none⟩, ⟨"V", some "int"⟩] := by decide +kernel

theorem stairs_settles : (ofFunction true stairs).Settles attic (.ok (some
    { called := "Loft", declaring := "Loft"
      templates := Keyed.ofList [("V", .int), ("T", .mixed), ("U", .mixed)] })) := by
  have found : (theClass "\\loft").Settles attic (.ok loft) := settles_theClass "\\loft"
  have tags : templateTags loft.docComment = [⟨"T", some "int"⟩, ⟨"U", none⟩] := by decide +kernel
  refine found.bind (attic_bare.bind (Settles.bind (a := Keyed.ofList [("V", .int), ("T", .mixed)]) ?_
    (Settles.bind (a := Keyed.ofList [("T", .int), ("U", .mixed)]) ?_ (settles_pure _))))
  · show (collectTemplates _ (templateTags stairs.docComment) Keyed.empty).Settles attic _
    rw [stairs_tags]
    exact (settles_pure _).bind ((settles_pure _).bind ((attic_int _).bind (settles_pure _)))
  · show (collectTemplates _ (templateTags loft.docComment) Keyed.empty).Settles attic _
    rw [tags]
    exact (attic_int _).bind ((settles_pure _).bind (settles_pure _))

theorem ofFunction_templates_stairs : ∃ s s₀, (ofFunction true stairs attic {}).1 = .ok (some s) ∧
    (ofClass true loft attic {}).1 = .ok s₀ ∧
    (∃ t, Binds attic { s₀ with templates := Keyed.empty } (some "int") t ∧
      s.templates.find? "V" = some t) ∧
    s.templates.find? "U" = s₀.templates.find? "U" ∧
    s.templates.keys = ["V", "T"] ++ s₀.templates.keys.filter (· ∉ ["V", "T"]) := by
  have registered : attic.find? "\\loft" = some loft := rfl
  have fresh := Memory.empty_isFaithful attic
  have made := (stairs_settles {} fresh).1
  obtain ⟨s₀, ofLoft, -, -, -, own, inherited, order⟩ :=
    ofFunction_templates registered rfl fresh made
  rw [stairs_tags] at own inherited order
  exact ⟨_, s₀, made, (ofLoft {} fresh).1, own "V" _ rfl, inherited "U" (by decide), order⟩

end TypeHints.Scope
