import TypeHints.Proofs.Depth
import TypeHints.Proofs.Ty.WellFormed

/-!
What a type is made of, and which of its parts no collection wraps. What holds at every depth of the
types that are joined holds at every depth of their union and their intersection, and of the type
with null added: one lemma for each of these, for either notion of part.
-/
namespace TypeHints.Ty

def parts : Ty → List Ty
  | .nullable inner => [inner]
  | .union members | .intersection members => members
  | .collection wrapped _ => [wrapped]
  | .generic wrapped args => wrapped :: args
  | .template _ bound => [bound]
  | .builtin _ | .object _ | .enum _ | .backedEnum _ _ => []

/-- The parts without the class that a collection wraps, by itself or in a generic type. -/
def exposed : Ty → List Ty
  | .collection wrapped _ =>
    if wrapped.bare.isClassLike then wrapped.args else wrapped.bare :: wrapped.args
  | t => t.parts

/-- A property that nothing made of builtins can lack at any depth, with a notion of part for which
unions, intersections, templates and `?` hide nothing. -/
structure Transparent (parts : Ty → List Ty) (P : Ty → Prop) : Prop where
  builtin : ∀ b, parts (.builtin b) = [] ∧ P (.builtin b)
  nullable : ∀ inner, parts (.nullable inner) = [inner] ∧ P (.nullable inner)
  union : ∀ members, parts (.union members) = members ∧ P (.union members)
  intersection : ∀ members, parts (.intersection members) = members ∧ P (.intersection members)
  template : ∀ name bound, parts (.template name bound) = [bound] ∧ P (.template name bound)
  plain : ∀ kind, Throughout parts P (.collection (ofKind kind) false)
  keyed : ∀ kind key value isList, (isList = true → key = int) → Throughout parts P key →
    Throughout parts P value → Throughout parts P (keyed kind key value isList)

namespace Transparent

variable {parts : Ty → List Ty} {P : Ty → Prop} (known : Transparent parts P)
include known

theorem of_builtin (b : Builtin) : Throughout parts P (.builtin b) :=
  .of_partless (known.builtin b).2 (known.builtin b).1

theorem of_nullable {inner : Ty} (h : Throughout parts P inner) : Throughout parts P (.nullable inner) := by
  refine throughout_iff.mpr ⟨(known.nullable inner).2, ?_⟩
  rw [(known.nullable inner).1]
  exact List.forall_mem_singleton.mpr h

theorem of_union {members : List Ty} (h : ∀ t ∈ members, Throughout parts P t) :
    Throughout parts P (.union members) := by
  refine throughout_iff.mpr ⟨(known.union members).2, ?_⟩
  rw [(known.union members).1]
  exact h

theorem of_intersection {members : List Ty} (h : ∀ t ∈ members, Throughout parts P t) :
    Throughout parts P (.intersection members) := by
  refine throughout_iff.mpr ⟨(known.intersection members).2, ?_⟩
  rw [(known.intersection members).1]
  exact h

theorem of_template {name : String} {bound : Ty} (h : Throughout parts P bound) :
    Throughout parts P (.template name bound) := by
  refine throughout_iff.mpr ⟨(known.template name bound).2, ?_⟩
  rw [(known.template name bound).1]
  exact List.forall_mem_singleton.mpr h

theorem unionMembers {t s : Ty} (h : Throughout parts P t) (member : s ∈ t.unionMembers) :
    Throughout parts P s := by
  cases t with
  | union members => exact h.part (by rw [(known.union members).1]; exact member)
  | _ =>
    obtain rfl := List.mem_singleton.mp member
    exact h

theorem intersectionMembers {t s : Ty} (h : Throughout parts P t)
    (member : s ∈ t.intersectionMembers) : Throughout parts P s := by
  cases t with
  | intersection members => exact h.part (by rw [(known.intersection members).1]; exact member)
  | _ =>
    obtain rfl := List.mem_singleton.mp member
    exact h

theorem refined {kind : Kind} {r : Refinement} {t : Ty} (built : Ty.refined kind r = .ok t) :
    Throughout parts P t := by
  rw [(refined_ok built).1]
  exact known.of_builtin _

theorem arrayKey : Throughout parts P arrayKey := by
  refine known.of_union ?_
  exact List.forall_mem_cons.mpr
    ⟨known.of_builtin _, List.forall_mem_singleton.mpr (known.of_builtin _)⟩

theorem listOf {value : Ty} (h : Throughout parts P value) : Throughout parts P (listOf value) :=
  known.keyed .array int value true (fun _ => rfl) (known.of_builtin _) h

theorem unionOf {members : List Ty} {t : Ty} (h : ∀ t ∈ members, Throughout parts P t)
    (built : unionOf members = .ok t) : Throughout parts P t := by
  have flat : ∀ s ∈ flatUnion members, Throughout parts P s := by
    intro s member
    obtain ⟨u, given, member⟩ := mem_flatUnion.mp member
    exact known.unionMembers (h u given) member
  obtain ⟨rfl, -⟩ | single | ⟨rfl, -, -⟩ := unionOf_cases built
  · exact known.of_builtin _
  · exact flat t (by simp [single])
  · exact known.of_union flat

theorem intersectionOf {members : List Ty} {t : Ty} (h : ∀ t ∈ members, Throughout parts P t)
    (built : intersectionOf members = .ok t) : Throughout parts P t := by
  have flat : ∀ s ∈ flatIntersection members, Throughout parts P s := by
    intro s member
    obtain ⟨u, given, member⟩ := mem_flatIntersection.mp member
    exact known.intersectionMembers (h u given) member
  obtain single | ⟨rfl, -⟩ := intersectionOf_cases built
  · exact flat t (by simp [single])
  · exact known.of_intersection flat

theorem wrapNullable {t : Ty} (h : Throughout parts P t) : Throughout parts P (wrapNullable t) := by
  cases t with
  | nullable inner => exact h
  | _ => exact known.of_nullable h

theorem orNull {t r : Ty} (h : Throughout parts P t) (built : t.orNull = .ok r) :
    Throughout parts P r := by
  cases t with
  | nullable inner =>
    cases built
    exact h
  | builtin b =>
    simp only [Ty.orNull] at built
    split at built
    · cases built
      exact h
    · split at built
      · cases built
      · cases built
        exact known.of_nullable h
  | union members =>
    have kept : ∀ s ∈ members.filter (!isKind .null ·), Throughout parts P s := by
      intro s member
      exact known.unionMembers h (List.mem_filter.mp member).1
    simp only [Ty.orNull] at built
    split at built
    next s single =>
      cases built
      exact known.wrapNullable (kept s (by simp [single]))
    next =>
      cases built
      exact known.of_nullable (known.of_union kept)
  | _ =>
    cases built
    exact known.of_nullable h

end Transparent

/-! ### Collections -/

def CollectionArgs.over (given : CollectionArgs) (wrapped : Ty) : Ty :=
  if given.value.isNone && given.key.isNone then wrapped
  else .generic wrapped [given.key.getD arrayKey, given.value.getD mixed]

theorem collectionOf_ok {wrapped t : Ty} {isList : Bool} (built : wrapped.collectionOf isList = .ok t) :
    t = .collection wrapped isList ∧ (isList = true → wrapped.keyType.isKind .int = true) := by
  unfold collectionOf at built
  split at built
  · cases built
  · split at built
    · cases built
    next keys =>
      cases built
      refine ⟨rfl, ?_⟩
      rintro rfl
      simpa using keys

theorem genericOf_ok {wrapped t : Ty} {args : List Ty} (built : wrapped.genericOf args = .ok t) :
    t = .generic wrapped args := by
  unfold genericOf at built
  split at built
  · cases built
    rfl
  · cases built

theorem applied_ok {base t : Ty} {args : List Ty} {isList : Bool}
    (built : (do
      let generic ← base.genericOf args
      generic.collectionOf isList) = .ok t) :
    t = .collection (.generic base args) isList ∧
      (isList = true → (Ty.generic base args).keyType.isKind .int = true) := by
  cases made : base.genericOf args with
  | error e =>
    rw [made] at built
    cases built
  | ok generic =>
    rw [made] at built
    obtain rfl := genericOf_ok made
    exact collectionOf_ok built

theorem collectionWith_ok {wrapped t : Ty} {given : CollectionArgs}
    (built : wrapped.collectionWith given = .ok t) :
    t = .collection (given.over wrapped) given.isList ∧
      (given.isList = true → (given.over wrapped).keyType.isKind .int = true) := by
  unfold collectionWith at built
  unfold CollectionArgs.over
  split at built
  next none =>
    rw [if_pos none]
    exact collectionOf_ok built
  next some =>
    rw [if_neg some]
    split at built
    · cases built
    · exact applied_ok built

end TypeHints.Ty
