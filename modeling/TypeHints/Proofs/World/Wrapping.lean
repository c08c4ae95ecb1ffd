import TypeHints.Proofs.World.Ancestry
import TypeHints.World.Basic

/-!
Whether a type is of a class is asked of what it wraps, however deep that lies, and so is which
kinds it is of. For a template only the second question goes through to its bound.
-/
namespace TypeHints

namespace Ty

def isTemplate : Ty → Bool
  | .template _ _ => true
  | _ => false

def addsNull : Ty → Bool
  | .nullable _ => true
  | _ => false

/-- The first type wraps the second one by these wrappers, the outermost first. -/
inductive Wraps : List Ty → Ty → Ty → Prop
  | none (t : Ty) : Wraps [] t t
  | more {t u v : Ty} {wrappers : List Ty} (outer : t.wrapped? = some u) (inner : Wraps wrappers u v) :
      Wraps (t :: wrappers) t v

end Ty

variable {t u v : Ty} {wrappers : List Ty}

/-! ### One wrapper -/

theorem typeIsA_wrapped (w : World) (className : String) (outer : t.wrapped? = some u) :
    w.typeIsA className t = (!t.isTemplate && w.typeIsA className u) := by
  cases t with
  | nullable | collection | generic =>
    cases outer
    simp [World.typeIsA, Ty.isTemplate]
  | template => simp [World.typeIsA, Ty.className?, Ty.isTemplate]
  | _ => cases outer

theorem isIdentifiedBy_wrapped (kinds : List Kind) (outer : t.wrapped? = some u) :
    t.isIdentifiedBy kinds = (t.addsNull && kinds.contains .null || u.isIdentifiedBy kinds) := by
  cases t with
  | nullable | collection | generic | template =>
    cases outer
    simp [Ty.isIdentifiedBy, Ty.addsNull]
  | _ => cases outer

/-! ### Any number of wrappers -/

theorem typeIsA_wraps (w : World) (className : String) (h : Ty.Wraps wrappers t v) :
    w.typeIsA className t = (!wrappers.any Ty.isTemplate && w.typeIsA className v) := by
  induction h with
  | none => rfl
  | more outer _ ih =>
    rw [typeIsA_wrapped w className outer, ih, List.any_cons, Bool.not_or, Bool.and_assoc]

theorem isIdentifiedBy_wraps (kinds : List Kind) (h : Ty.Wraps wrappers t v) :
    t.isIdentifiedBy kinds =
      (wrappers.any Ty.addsNull && kinds.contains .null || v.isIdentifiedBy kinds) := by
  induction h with
  | none => rfl
  | more outer _ ih =>
    rw [isIdentifiedBy_wrapped kinds outer, ih, List.any_cons, Bool.and_or_distrib_right, Bool.or_assoc]

/-! ### Objects -/

theorem isIdentifiedBy_of_typeIsA {w : World} {className : String} (h : w.typeIsA className t = true) :
    t.isIdentifiedBy [.object] = true := by
  fun_induction World.typeIsA w className t with
  | case1 wrapped isList ih => exact ih h
  | case2 wrapped args ih => exact ih h
  | case3 inner ih => rw [Ty.isIdentifiedBy, ih h, Bool.or_true]
  | case4 b =>
    rw [Bool.and_eq_true, decide_eq_true_eq] at h
    simp [Ty.isIdentifiedBy, h.1]
  | case5 t =>
    obtain ⟨name, like, -⟩ := (Option.any_eq_true _ _).mp h
    exact Ty.isIdentifiedBy_of_className? like

/-- A type is of a class if what it wraps is, unless a template is among the wrappers: then it is of
none. Its kinds are those of what it wraps, whatever the wrappers, and null if one of them adds it. A
type that is of a class is an object. -/
theorem typeIsA_of_wraps (w : World) (className : String) (t : Ty) :
    (∀ wrappers v, Ty.Wraps wrappers t v →
      w.typeIsA className t = (!wrappers.any Ty.isTemplate && w.typeIsA className v) ∧
      ∀ kinds, t.isIdentifiedBy kinds =
        (wrappers.any Ty.addsNull && kinds.contains .null || v.isIdentifiedBy kinds)) ∧
    (w.typeIsA className t = true → t.isIdentifiedBy [.object] = true) :=
  ⟨fun _ _ h => ⟨typeIsA_wraps w className h, fun kinds => isIdentifiedBy_wraps kinds h⟩,
    isIdentifiedBy_of_typeIsA⟩

def host : World where
  table := ClassTable.builtins

theorem host_iterator : host.typeIsA "Traversable" (.object "Iterator") = true := by
  have step : host.table.isA "Iterator" "Traversable" = ClassTable.leadsTo (ClassName.key "Traversable")
      (Keyed.dropEntry (ClassName.key "Iterator") host.table.byKey.entries) ["Traversable"] :=
    ClassTable.leadsTo_step (c := ClassTable.interfaceDecl "Iterator" ["Traversable"]) (by decide) rfl
  exact step.trans (ClassTable.leadsTo_here rfl)

def iteration : Ty := .nullable (.collection (.generic (.object "Iterator") [.int]) false)

theorem typeIsA_of_wraps_iteration :
    (∃ wrappers, Ty.Wraps wrappers iteration (.object "Iterator") ∧ wrappers.length = 3) ∧
      host.typeIsA "Traversable" iteration = true ∧ iteration.isIdentifiedBy [.object] = true := by
  have wraps : Ty.Wraps [_, _, _] iteration (.object "Iterator") :=
    .more rfl (.more rfl (.more rfl (.none _)))
  obtain ⟨asks, identified⟩ := typeIsA_of_wraps host "Traversable" iteration
  have holds : host.typeIsA "Traversable" iteration = true := by
    rw [(asks _ _ wraps).1, host_iterator]
    rfl
  exact ⟨⟨_, wraps, rfl⟩, holds, identified holds⟩

/-- A template bounded by a class is identified as its bound is, but it is not of the class. -/
theorem template_of_no_class :
    (Ty.template "T" (.object "Iterator")).wrapped? = some (.object "Iterator") ∧
      host.typeIsA "Traversable" (.object "Iterator") = true ∧
      (Ty.template "T" (.object "Iterator")).isIdentifiedBy [.object] = true ∧
      host.typeIsA "Traversable" (.template "T" (.object "Iterator")) = false :=
  ⟨rfl, host_iterator, rfl, rfl⟩

end TypeHints
