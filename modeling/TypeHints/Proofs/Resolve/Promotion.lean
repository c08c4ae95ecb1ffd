import TypeHints.Proofs.Resolve.Arguments
import TypeHints.Proofs.Resolve.Depth
import TypeHints.Proofs.Resolve.ScopeWord

namespace TypeHints

namespace Ty

variable {w : World} {allowed : Ty → Prop}

/-- A class that is iterable or indexable stands by itself only where that is allowed. -/
def Spares (w : World) (allowed : Ty → Prop) (t : Ty) : Prop := w.isCollectionObject t = true → allowed t

/-- So it is at every depth, apart from what collections wrap. -/
abbrev Promoted (w : World) (allowed : Ty → Prop) (t : Ty) : Prop := Throughout exposed (Spares w allowed) t

theorem spares_of_unclassed {t : Ty} (none : t.className? = none) : Spares w allowed t := by
  intro like
  rw [World.isCollectionObject, none] at like
  cases like

theorem exposed_collection (wrapped : Ty) (isList : Bool) : exposed (.collection wrapped isList) =
    if wrapped.bare.isClassLike then wrapped.args else wrapped.bare :: wrapped.args := rfl

theorem collection_promoted {wrapped : Ty} {isList : Bool}
    (own : wrapped.bare.isClassLike = true ∨ Promoted w allowed wrapped.bare)
    (args : ∀ a ∈ wrapped.args, Promoted w allowed a) :
    Promoted w allowed (.collection wrapped isList) := by
  refine throughout_iff.mpr ⟨spares_of_unclassed rfl, ?_⟩
  rw [exposed_collection]
  split
  · exact args
  next other => exact List.forall_mem_cons.mpr ⟨own.resolve_left other, args⟩

theorem promoted_of_collection {wrapped : Ty} {isList : Bool}
    (h : Promoted w allowed (.collection wrapped isList)) :
    (wrapped.bare.isClassLike = true ∨ Promoted w allowed wrapped.bare) ∧
      ∀ a ∈ wrapped.args, Promoted w allowed a := by
  have inside := (throughout_iff.mp h).2
  rw [exposed_collection] at inside
  split at inside
  next named => exact ⟨.inl named, inside⟩
  next => exact ⟨.inr (inside _ List.mem_cons_self), fun a member => inside a (List.mem_cons_of_mem _ member)⟩

theorem spares_transparent : Transparent exposed (Spares w allowed) where
  builtin _ := ⟨rfl, spares_of_unclassed rfl⟩
  nullable _ := ⟨rfl, spares_of_unclassed rfl⟩
  union _ := ⟨rfl, spares_of_unclassed rfl⟩
  intersection _ := ⟨rfl, spares_of_unclassed rfl⟩
  template _ _ := ⟨rfl, spares_of_unclassed rfl⟩
  plain _ := collection_promoted (.inr (.of_partless (spares_of_unclassed rfl) rfl)) nofun
  keyed _ _ _ _ _ key value :=
    collection_promoted (.inr (.of_partless (spares_of_unclassed rfl) rfl))
      (List.forall_mem_cons.mpr ⟨key, List.forall_mem_singleton.mpr value⟩)

theorem bare_of_isClassLike {t : Ty} (named : t.isClassLike = true) : t.bare = t ∧ t.args = [] := by
  cases t with
  | generic => cases named
  | _ => exact ⟨rfl, rfl⟩

theorem class_promoted {t : Ty} (named : t.isClassLike = true) (apart : w.isCollectionObject t = false) :
    Promoted w allowed t := by
  refine .of_partless ?_ ?_
  · intro like
    rw [apart] at like
    cases like
  · cases t with
    | object | enum | backedEnum => rfl
    | _ => cases named

end Ty

namespace Resolve
open Hint Ty

variable {w : World} {scope : Option Scope} {allowed : Ty → Prop}

/-! ### Collections over a class -/

/-- The class itself is hidden, and so its arguments are all that has to be known. -/
theorem collectionWith_promoted {t r : Ty} {given : CollectionArgs} (named : t.isClassLike = true)
    (hargs : ∀ a ∈ Factory.argsOf given, Promoted w allowed a)
    (built : t.collectionWith given = .ok r) : Promoted w allowed r := by
  obtain ⟨rfl, -⟩ := collectionWith_ok built
  obtain ⟨bare, args⟩ := bare_of_isClassLike named
  unfold CollectionArgs.over
  split
  · refine collection_promoted (.inl (by rw [bare, named])) ?_
    rw [args]
    exact nofun
  · refine collection_promoted (.inl named) (List.forall_mem_cons.mpr ⟨?_, List.forall_mem_singleton.mpr ?_⟩)
    · cases chosen : given.key with
      | none => exact spares_transparent.arrayKey
      | some k => exact hargs k (by simp [Factory.argsOf, chosen])
    · cases chosen : given.value with
      | none => exact spares_transparent.of_builtin _
      | some v => exact hargs v (by simp [Factory.argsOf, chosen])

theorem promote_promoted {t : Ty} (named : t.isClassLike = true) :
    (promote t).Gives w (Promoted w allowed) := by
  refine (Query.gives_ofWorld _).bind fun isCollection same => ?_
  split
  · exact Query.gives_ofBuilt fun r => collectionWith_promoted named nofun
  next apart => exact Query.gives_pure (class_promoted named (by simpa [same] using apart))

/-! ### Arguments -/

theorem applyPlain_promoted {t : Ty} {vars : List Ty}
    (h : t.isClassLike = true ∨ Promoted w allowed t)
    (hvars : ∀ v ∈ vars, Promoted w allowed v) :
    (applyPlain t vars).Gives w (Promoted w allowed) := by
  have holds (apart : w.isCollectionObject t = false) : Promoted w allowed t :=
    h.elim (fun named => class_promoted named apart) id
  refine applyPlain_gives_of ?_ holds ?_
  · intro like given r _ among
    have named : t.isClassLike = true := by
      cases found : t.className? with
      | none => simp [World.isCollectionObject, found] at like
      | some name => simp [Ty.isClassLike, found]
    exact collectionWith_promoted named fun a member => hvars a (among a member)
  · intro apart r built
    rw [genericOf_ok built]
    exact throughout_iff.mpr ⟨spares_of_unclassed rfl, List.forall_mem_cons.mpr ⟨holds apart, hvars⟩⟩

theorem keyType_promoted {t : Ty} (args : ∀ a ∈ t.args, Promoted w allowed a) :
    Promoted w allowed t.keyType := by
  unfold keyType
  split
  next key value given => exact args key (by simp [given])
  next => exact spares_transparent.of_builtin _
  next => exact spares_transparent.arrayKey

theorem applyArgs_promoted {t : Ty} {vars : List Ty} (h : Promoted w allowed t)
    (hvars : ∀ v ∈ vars, Promoted w allowed v) :
    (applyArgs t vars).Gives w (Promoted w allowed) := by
  unfold applyArgs
  split
  next wrapped isList value =>
    obtain ⟨own, args⟩ := promoted_of_collection h
    refine Query.gives_ofBuilt fun r built => ?_
    rw [(applied_ok built).1]
    exact collection_promoted own (List.forall_mem_cons.mpr ⟨keyType_promoted args, hvars⟩)
  next wrapped isList key value =>
    obtain ⟨own, args⟩ := promoted_of_collection h
    refine Query.gives_ofBuilt fun r built => ?_
    rw [(collectionWith_ok built).1]
    exact collection_promoted own hvars
  next => exact applyPlain_promoted (promoted_of_collection h).1 hvars
  next => exact applyPlain_promoted (.inr h) hvars

/-! ### Texts -/

theorem promoted_inductive {mentioned : Prop}
    (bounded : ∀ s ∈ scope, s.templates.Holds (Promoted w allowed))
    (this : mentioned → ∀ s ∈ scope, allowed (.object (ClassName.stripRoot s.calledClass))) :
    IsInductive w scope fun n t =>
      Throughout Part.parts (fun p => p = .node .this → mentioned) (.node n) →
      Promoted w allowed t := by
  refine spares_transparent.isInductive ?_ ?_ ?_
  · intro asked s given
    exact .of_partless (fun _ => this (asked rfl) s given) rfl
  · exact spares_transparent.gives_name (fun _ => promote_promoted) bounded
  · intro base args t vars _ _ h _ hvars
    exact applyArgs_promoted h hvars

theorem read_this : read "$this" = .ok .this := by
  have spelled : IsType (atoms maxDepth) .this [.this] :=
    .single (.single (.operand (.closed (.base .this))))
  have text : "$this".toList = write [.this] := by decide
  refine read_of_spelled spelled ?_
  rw [tokens, text]
  exact lexemes_write (List.forall_mem_singleton.mpr isPlain_this) 0

theorem this_answer (s : Scope) (w : World) (m : Memory) :
    (resolveHint (some s) "$this" w m).1 = .ok (.object (ClassName.stripRoot s.calledClass)) := by
  unfold resolveHint
  rw [read_this]
  rfl

/-- No class that is iterable or indexable stands by itself in what a text is resolved to, if none does
in the bounds of the templates, but for the called class where `$this` is written, which is always
left as it is. -/
theorem promotion_complete (w : World) (scope : Option Scope) (text : String)
    (bounded : ∀ s ∈ scope, s.templates.Holds (Promoted w fun _ => False)) :
    ((resolveHint scope text).Gives w fun t =>
      ∀ c, Encloses exposed t c → w.isCollectionObject c = true →
        (∃ n, read text = .ok n ∧ Encloses Part.parts (.node n) (.node .this)) ∧
          ∃ s ∈ scope, c = .object (ClassName.stripRoot s.calledClass)) ∧
    ∀ s ∈ scope, ∀ m,
      (resolveHint scope "$this" w m).1 = .ok (.object (ClassName.stripRoot s.calledClass)) := by
  refine ⟨?_, ?_⟩
  · intro m t answer c deep like
    let mentioned : Prop := ∃ n, read text = .ok n ∧ Encloses Part.parts (.node n) (.node .this)
    let allowed : Ty → Prop := fun c =>
      mentioned ∧ ∃ s ∈ scope, c = .object (ClassName.stripRoot s.calledClass)
    have bounded' : ∀ s ∈ scope, s.templates.Holds (Promoted w allowed) := by
      intro s given
      refine (bounded s given).mono fun bound promoted => promoted.mono fun c spares like => ?_
      exact (spares like).elim
    have called : mentioned → ∀ s ∈ scope, allowed (.object (ClassName.stripRoot s.calledClass)) :=
      fun mentioned s given => ⟨mentioned, s, given, rfl⟩
    obtain ⟨n, ok, holds⟩ := (promoted_inductive bounded' called).gives_hint text m t answer
    refine holds ?_ c deep like
    rintro _ within rfl
    exact ⟨n, ok, within⟩
  · rintro s ⟨⟩ m
    exact this_answer s w m

def shelves : Scope where
  called := "Shelf"
  declaring := "Shelf"
  templates := Keyed.empty.put "T" (.collection (.object "Shelf") false)

theorem shelves_static :
    (resolveHint (some shelves) "static" shelf {}).1 = .ok (.collection (.object "Shelf") false) := by
  obtain ⟨-, -, -, like⟩ := shelf_names
  have means : scopeClass? "static" = some fun s => pure s.calledClass := rfl
  have named : (plainName (some shelves) "static").Settles shelf (.ok (.object "Shelf")) := by
    rw [plainName_word means]
    exact (Query.settles_pure "Shelf").bind (Query.settles_pure _)
  have word : read "static" = .ok (.name "static") := read_name (by decide)
  have whole := resolveHint_settles word (named.bind (promote_class_settles rfl like)) nofun
  exact (whole {} (Memory.empty_isFaithful shelf)).1

/-- The same class is a collection as `static`, and stands by itself as `$this`. -/
theorem this_stands_alone :
    (resolveHint (some shelves) "$this" shelf {}).1 = .ok (.object "Shelf") ∧
    ¬ Promoted shelf (fun _ => False) (.object "Shelf") ∧
    (resolveHint (some shelves) "static" shelf {}).1 = .ok (.collection (.object "Shelf") false) := by
  obtain ⟨-, -, -, like⟩ := shelf_names
  exact ⟨this_answer shelves shelf {}, fun promoted => promoted.own like, shelves_static⟩

/-- What is written without `$this` is promoted throughout. -/
theorem promotion_complete_static :
    (∀ s ∈ some shelves, s.templates.Holds (Promoted shelf fun _ => False)) ∧
    (resolveHint (some shelves) "static" shelf {}).1 = .ok (.collection (.object "Shelf") false) ∧
    Promoted shelf (fun _ => False) (.collection (.object "Shelf") false) := by
  have bounded : ∀ s ∈ some shelves, s.templates.Holds (Promoted shelf fun _ => False) := by
    rintro s ⟨⟩
    refine (Keyed.holds_empty _).put (collection_promoted (.inl rfl) nofun)
  refine ⟨bounded, shelves_static, ?_⟩
  intro c deep like
  obtain ⟨⟨n, ok, within⟩, -⟩ :=
    (promotion_complete shelf (some shelves) "static" bounded).1 {} _ shelves_static c deep like
  have word : read "static" = .ok (.name "static") := read_name (by decide)
  cases word.symm.trans ok
  obtain same | ⟨_, ⟨⟩, _⟩ := within.cases_head
  cases same

end Resolve

end TypeHints
