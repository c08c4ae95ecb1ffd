import TypeHints.Proofs.Hint.Height
import TypeHints.Proofs.Keyed
import TypeHints.Proofs.Resolve.Answers
import TypeHints.Proofs.Resolve.Canonical
import TypeHints.Proofs.Ty.Parts

namespace TypeHints.Ty.Transparent
open Hint Resolve

variable {w : World} {scope : Option Scope} {parts : Ty → List Ty} {P : Ty → Prop}
  (known : Transparent parts P)
include known

/-! ### Names -/

theorem of_keyword {name : String} {t : Ty} (keyword : KeywordType name t) :
    Throughout parts P t := by
  cases keyword with
  | builtin => exact known.of_builtin _
  | plain => exact known.plain _
  | list => exact known.listOf (known.of_builtin _)
  | union kinds => exact known.of_union (List.forall_mem_map.mpr fun _ _ => known.of_builtin _)

omit known in
theorem gives_promote (classes : ∀ t, t.isClassLike = true → (promote t).Gives w (Throughout parts P))
    {t : Ty} (h : t.isClassLike = true ∨ Throughout parts P t) :
    (promote t).Gives w (Throughout parts P) := by
  cases named : t.isClassLike with
  | true => exact classes t named
  | false =>
    have holds := h.resolve_left (by simp [named])
    have none : t.className? = none := by simpa [isClassLike] using named
    have apart : w.isCollectionObject t = false := by simp [World.isCollectionObject, none]
    refine (Query.gives_ofWorld _).bind fun isCollection same => ?_
    rw [same, apart]
    exact Query.gives_pure holds

theorem gives_name (classes : ∀ t, t.isClassLike = true → (promote t).Gives w (Throughout parts P))
    (bounded : ∀ s ∈ scope, s.templates.Holds (Throughout parts P)) (name : String) :
    (resolveName scope name).Gives w (Throughout parts P) := by
  have plain : (plainName scope name).Gives w fun t =>
      t.isClassLike = true ∨ Throughout parts P t := by
    refine (plainName_means w scope name).mono fun t meaning => ?_
    cases meaning with
    | word keyword => exact .inr (known.of_keyword keyword)
    | scopeClass => exact .inl rfl
    | refined built => exact .inr (known.refined built)
    | classified classified => exact .inl (by simp [isClassLike, classify_className? classified])
    | template given found => exact .inr (known.of_template ((bounded _ given).find? found))
  exact plain.bind fun t h => gives_promote classes h

/-! ### Expressions -/

theorem gives_const (value : Const) : (constantType value).Gives w (Throughout parts P) := by
  cases value with
  | int _ | float _ | quoted _ => exact Query.gives_pure (known.of_builtin _)
  | array _ => exact Query.gives_pure (known.plain .array)
  | name _ | fetch _ _ => exact Query.gives_fail _

/-- `C` is asked of the parts of the expression: of `$this`, and of what arguments are passed to. -/
theorem isInductive {C : Part → Prop}
    (this : C (.node .this) → ∀ s ∈ scope,
      Throughout parts P (.object (ClassName.stripRoot s.calledClass)))
    (name : ∀ text, (resolveName scope text).Gives w (Throughout parts P))
    (applied : ∀ base args t vars, C (.node (.generic base args)) → Answers w scope base t →
      Throughout parts P t → List.Forall₂ (Answers w scope) args vars →
      (∀ v ∈ vars, Throughout parts P v) → (applyArgs t vars).Gives w (Throughout parts P)) :
    IsInductive w scope fun n t => Throughout Part.parts C (.node n) → Throughout parts P t := by
  have members {R : Node → Ty → Prop} {n : Node} {ns : List Node} {ts : List Ty}
      (within : ns.map .node ⊆ n.parts) (asked : Throughout Part.parts C (.node n))
      (all : List.Forall₂ R ns ts)
      (each : ∀ m t, R m t → Throughout Part.parts C (.node m) → Throughout parts P t) :
      ∀ t ∈ ts, Throughout parts P t :=
    forall_mem_of_forall₂ all fun m member t holds =>
      each m t holds (asked.part (within (List.mem_map_of_mem member)))
  refine
    { callable := fun _ _ _ _ => known.of_builtin _
      array := fun item t holds asked => known.listOf (holds (asked.part List.mem_cons_self))
      arrayShape := fun _ _ _ _ _ => known.plain .array
      objectShape := fun _ _ => known.of_builtin _
      this := fun s given asked => this asked.own s given
      const := fun value => (known.gives_const value).mono fun _ holds _ => holds
      name := fun text => (name text).mono fun _ holds _ => holds
      nullable := fun inner t r holds built asked =>
        known.orNull (holds (asked.part List.mem_cons_self)) built
      range := fun _ _ _ _ _ built _ => known.refined built
      bare := fun _ _ _ _ holds _ asked => holds (asked.part List.mem_cons_self)
      applied := ?_
      union := fun ns ts t all built asked =>
        known.unionOf (members (List.Subset.refl _) asked all fun _ _ holds => holds) built
      mixed := fun _ _ => known.of_builtin _
      intersection := fun ns ts t all built asked =>
        known.intersectionOf (members (List.Subset.refl _) asked all fun _ _ holds => holds) built }
  intro base args t vars answered holds all m r given asked
  have holds : Throughout parts P t := holds (asked.part List.mem_cons_self)
  refine applied base args t vars asked.own answered holds (all.imp fun _ _ both => both.1) ?_ m r given
  exact members (List.subset_cons_self _ _) asked all fun _ _ both => both.2

end TypeHints.Ty.Transparent
