import Mathlib.Logic.Relation

/-!
Types and type expressions are made of parts that are made of parts again. `Throughout` says of such
a value what holds of it and of everything in it.
-/
namespace TypeHints

variable {α : Type} {parts : α → List α} {P Q : α → Prop} {x y : α}

/-- The second value is the first, or in it at some depth. -/
def Encloses (parts : α → List α) : α → α → Prop :=
  Relation.ReflTransGen fun whole part => part ∈ parts whole

/-- The property holds of the value and of everything in it. -/
def Throughout (parts : α → List α) (P : α → Prop) (x : α) : Prop :=
  ∀ y, Encloses parts x y → P y

theorem throughout_iff :
    Throughout parts P x ↔ P x ∧ ∀ y ∈ parts x, Throughout parts P y := by
  constructor
  · intro all
    exact ⟨all x .refl, fun y part z deep => all z (.head part deep)⟩
  · rintro ⟨own, inside⟩ z deep
    rcases deep.cases_head with rfl | ⟨y, part, deep⟩
    · exact own
    · exact inside y part z deep

theorem Throughout.own (h : Throughout parts P x) : P x := (throughout_iff.mp h).1

theorem Throughout.part (h : Throughout parts P x) (part : y ∈ parts x) : Throughout parts P y :=
  (throughout_iff.mp h).2 y part

theorem Throughout.mono (h : Throughout parts P x) (weaker : ∀ y, P y → Q y) :
    Throughout parts Q x :=
  fun y deep => weaker y (h y deep)

theorem Throughout.of_partless (own : P x) (none : parts x = []) : Throughout parts P x := by
  refine throughout_iff.mpr ⟨own, ?_⟩
  rw [none]
  exact nofun

end TypeHints
