import TypeHints.Proofs.Ty.Nullable

namespace TypeHints.Ty

section
variable {kinds : List Kind} {spec : Ty → Bool}

/-! ### Questions to any member -/

/-- A question that is put to a union by putting it to the members. -/
def AsksAny (asks : Ty → Bool) : Prop :=
  ∀ t, asks t = true ↔ ∃ s ∈ t.unionMembers, asks s = true

theorem asksAny_of_union {asks : Ty → Bool} (union : ∀ ms, asks (.union ms) = ms.any asks) :
    AsksAny asks := by
  intro t
  cases t with
  | union members =>
    rw [union, List.any_eq_true]
    rfl
  | _ => simp [unionMembers]

theorem asksAny_isNullable : AsksAny isNullable :=
  asksAny_of_union fun ms => anyNullable_eq_any ms

theorem asksAny_isIdentifiedBy : AsksAny (isIdentifiedBy kinds) :=
  asksAny_of_union fun ms => anyIdentifiedBy_eq_any kinds ms

theorem asksAny_satisfies : AsksAny (satisfies spec) :=
  asksAny_of_union fun ms => anySatisfies_eq_any spec ms

theorem AsksAny.flatUnion {asks : Ty → Bool} (any : AsksAny asks) {ms : List Ty} :
    (∃ s ∈ flatUnion ms, asks s = true) ↔ ∃ t ∈ ms, asks t = true := by
  constructor
  · rintro ⟨s, member, holds⟩
    obtain ⟨t, given, brought⟩ := mem_flatUnion.mp member
    exact ⟨t, given, (any t).mpr ⟨s, brought, holds⟩⟩
  · rintro ⟨t, given, holds⟩
    obtain ⟨s, brought, holds⟩ := (any t).mp holds
    exact ⟨s, mem_flatUnion.mpr ⟨t, given, brought⟩, holds⟩

theorem AsksAny.unionOf {asks : Ty → Bool} (any : AsksAny asks) {ms : List Ty} {u : Ty}
    (unmixed : ∀ s ∈ Ty.flatUnion ms, s.isKind .mixed = false) (built : unionOf ms = .ok u) :
    asks u = true ↔ ∃ t ∈ ms, asks t = true := by
  rw [← any.flatUnion]
  rcases unionOf_cases built with ⟨-, s, member, isMixed⟩ | single | ⟨rfl, -, -⟩
  · rw [unmixed s member] at isMixed
    cases isMixed
  · rw [single]
    simp
  · exact any _

/-- `mixed` comes into a union as a member of its own only: no union has it. -/
theorem unmixed_flatUnion {ms : List Ty} (known : ∀ t ∈ ms, WellFormed t) (other : ∀ t ∈ ms, t ≠ mixed) :
    ∀ s ∈ flatUnion ms, s.isKind .mixed = false := by
  intro s member
  obtain ⟨t, given, brought⟩ := mem_flatUnion.mp member
  cases known t given with
  | union _ _ _ _ joinable =>
    exact Bool.eq_false_iff.mpr (List.any_eq_false.mp (unmixed_of_joinable joinable) s brought)
  | _ =>
    obtain rfl := List.mem_singleton.mp brought
    exact isKind_mixed_of_ne (known _ given) (other _ given)

theorem isNullable_unionOf {ms : List Ty} {u : Ty} (built : unionOf ms = .ok u) :
    u.isNullable = true ↔ ∃ t ∈ ms, t.isNullable = true := by
  by_cases hasMixed : ∃ s ∈ flatUnion ms, s.isKind .mixed = true
  · obtain ⟨s, member, isMixed⟩ := hasMixed
    have nullable : s.isNullable = true := by
      cases s with
      | builtin b =>
        have isMixed : b.kind = .mixed := by simpa [isKind] using isMixed
        simp [isNullable, isMixed, Kind.acceptsNull]
      | _ => cases isMixed
    rw [unionOf_of_mixed_mem member isMixed] at built
    cases built
    apply iff_of_true rfl
    exact asksAny_isNullable.flatUnion.mp ⟨s, member, nullable⟩
  · apply asksAny_isNullable.unionOf _ built
    intro s member
    apply Bool.eq_false_iff.mpr
    intro isMixed
    exact hasMixed ⟨s, member, isMixed⟩

/-! ### Intersections -/

theorem isIdentifiedBy_iff_intersectionMembers (t : Ty) :
    t.isIdentifiedBy kinds = true ↔ ∃ s ∈ t.intersectionMembers, s.isIdentifiedBy kinds = true := by
  cases t with
  | intersection members =>
    rw [isIdentifiedBy, anyIdentifiedBy_eq_any, List.any_eq_true]
    rfl
  | _ => simp [intersectionMembers]

theorem satisfies_iff_intersectionMembers (t : Ty) :
    t.satisfies spec = true ↔ ∀ s ∈ t.intersectionMembers, s.satisfies spec = true := by
  cases t with
  | intersection members =>
    rw [satisfies, allSatisfy_eq_all, List.all_eq_true]
    rfl
  | _ => simp [intersectionMembers]

theorem mem_intersectionMembers_intersectionOf {ms : List Ty} {i : Ty}
    (known : ∀ t ∈ ms, WellFormed t) (built : intersectionOf ms = .ok i) (s : Ty) :
    s ∈ i.intersectionMembers ↔ ∃ t ∈ ms, s ∈ t.intersectionMembers := by
  rw [← mem_flatIntersection]
  rcases intersectionOf_cases built with single | ⟨rfl, -⟩
  · have member : i ∈ flatIntersection ms := by simp [single]
    rw [intersectionMembers_of_flat (flatIntersection_wellFormed known member).2, single]
  · rfl

theorem isIdentifiedBy_intersectionOf {ms : List Ty} {i : Ty} (known : ∀ t ∈ ms, WellFormed t)
    (built : intersectionOf ms = .ok i) :
    i.isIdentifiedBy kinds = true ↔ ∃ t ∈ ms, t.isIdentifiedBy kinds = true := by
  have members := mem_intersectionMembers_intersectionOf known built
  rw [isIdentifiedBy_iff_intersectionMembers]
  constructor
  · rintro ⟨s, member, holds⟩
    obtain ⟨t, given, brought⟩ := (members s).mp member
    exact ⟨t, given, (isIdentifiedBy_iff_intersectionMembers t).mpr ⟨s, brought, holds⟩⟩
  · rintro ⟨t, given, holds⟩
    obtain ⟨s, brought, holds⟩ := (isIdentifiedBy_iff_intersectionMembers t).mp holds
    exact ⟨s, (members s).mpr ⟨t, given, brought⟩, holds⟩

theorem satisfies_intersectionOf {ms : List Ty} {i : Ty} (known : ∀ t ∈ ms, WellFormed t)
    (built : intersectionOf ms = .ok i) :
    i.satisfies spec = true ↔ ∀ t ∈ ms, t.satisfies spec = true := by
  have members := mem_intersectionMembers_intersectionOf known built
  rw [satisfies_iff_intersectionMembers]
  constructor
  · intro holds t given
    apply (satisfies_iff_intersectionMembers t).mpr
    intro s brought
    exact holds s ((members s).mpr ⟨t, given, brought⟩)
  · intro holds s member
    obtain ⟨t, given, brought⟩ := (members s).mp member
    exact (satisfies_iff_intersectionMembers t).mp (holds t given) s brought

/-! ### Null -/

theorem isIdentifiedBy_of_isKind {t : Ty} {kind : Kind} (isKind : t.isKind kind = true) :
    t.isIdentifiedBy kinds = kinds.contains kind := by
  cases t with
  | builtin b =>
    have same : b.kind = kind := by simpa [Ty.isKind] using isKind
    rw [isIdentifiedBy, same]
  | _ => cases isKind

theorem isIdentifiedBy_wrapNullable (t : Ty) :
    (wrapNullable t).isIdentifiedBy kinds = (kinds.contains .null || t.isIdentifiedBy kinds) := by
  cases t with
  | nullable inner =>
    rw [wrapNullable, isIdentifiedBy, ← Bool.or_assoc, Bool.or_self]
  | _ => rfl

theorem anyIdentifiedBy_filter_null (ms : List Ty) :
    (kinds.contains .null || anyIdentifiedBy kinds (ms.filter (!isKind .null ·))) =
      (kinds.contains .null || anyIdentifiedBy kinds ms) := by
  induction ms with
  | nil => rfl
  | cons t rest ih =>
    by_cases isNull : t.isKind .null = true
    · have dropped : ¬ (!t.isKind .null) = true := by simp [isNull]
      rw [List.filter_cons, if_neg dropped, ih, anyIdentifiedBy, isIdentifiedBy_of_isKind isNull,
        ← Bool.or_assoc, Bool.or_self]
    · have kept : (!t.isKind .null) = true := by simpa using isNull
      rw [List.filter_cons, if_pos kept, anyIdentifiedBy, anyIdentifiedBy, Bool.or_left_comm, ih,
        Bool.or_left_comm]

theorem isIdentifiedBy_orNull {t r : Ty} (unmixed : t.isKind .mixed = false)
    (built : t.orNull = .ok r) :
    r.isIdentifiedBy kinds = (kinds.contains .null || t.isIdentifiedBy kinds) := by
  cases t with
  | nullable inner =>
    cases built
    rw [isIdentifiedBy, ← Bool.or_assoc, Bool.or_self]
  | builtin b =>
    simp only [orNull] at built
    split at built
    next accepts =>
      cases built
      -- Of the two kinds that accept null only null itself is left.
      have isNull : b.kind = .null := by
        have other : b.kind ≠ .mixed := by simpa [isKind] using unmixed
        revert accepts other
        cases b.kind <;> simp [Kind.acceptsNull]
      rw [isIdentifiedBy, isNull, Bool.or_self]
    next =>
      split at built
      next => cases built
      next =>
        cases built
        rfl
  | union members =>
    rw [isIdentifiedBy, ← anyIdentifiedBy_filter_null members]
    simp only [orNull] at built
    split at built
    next s single =>
      cases built
      rw [single, isIdentifiedBy_wrapNullable, anyIdentifiedBy, anyIdentifiedBy, Bool.or_false]
    next =>
      cases built
      rfl
  | _ =>
    cases built
    rfl

/-! ### All factories -/

/-- A union is nullable if and only if one of its members is; it is of some kinds, or satisfies a
specification, if and only if one of them does, unless `mixed` is among them and takes the place of all.
An intersection satisfies a specification through all of its members and is of some kinds through any.
Adding null makes a type of the kind of null, and of no other one. -/
theorem unionOf_observed (kinds : List Kind) (spec : Ty → Bool) :
    (∀ ms u, (∀ t ∈ ms, WellFormed t) → unionOf ms = .ok u →
      (u.isNullable = true ↔ ∃ t ∈ ms, t.isNullable = true) ∧
      ((∀ t ∈ ms, t ≠ mixed) →
        (u.isIdentifiedBy kinds = true ↔ ∃ t ∈ ms, t.isIdentifiedBy kinds = true) ∧
        (u.satisfies spec = true ↔ ∃ t ∈ ms, t.satisfies spec = true))) ∧
    (∀ ms i, (∀ t ∈ ms, WellFormed t) → intersectionOf ms = .ok i →
      (i.satisfies spec = true ↔ ∀ t ∈ ms, t.satisfies spec = true) ∧
      (i.isIdentifiedBy kinds = true ↔ ∃ t ∈ ms, t.isIdentifiedBy kinds = true)) ∧
    ∀ t r, WellFormed t → t ≠ mixed → t.orNull = .ok r →
      (r.isIdentifiedBy kinds = true ↔ .null ∈ kinds ∨ t.isIdentifiedBy kinds = true) := by
  refine ⟨?_, ?_, ?_⟩
  · intro ms u known built
    refine ⟨isNullable_unionOf built, ?_⟩
    intro other
    have unmixed := unmixed_flatUnion known other
    exact ⟨asksAny_isIdentifiedBy.unionOf unmixed built, asksAny_satisfies.unionOf unmixed built⟩
  · intro ms i known built
    exact ⟨satisfies_intersectionOf known built, isIdentifiedBy_intersectionOf known built⟩
  · intro t r known other built
    have unmixed := isKind_mixed_of_ne known other
    rw [isIdentifiedBy_orNull unmixed built, Bool.or_eq_true, List.contains_iff_mem]

/-- A repeated member, one that is nullable, and an intersection of two classes. -/
theorem unionOf_observed_nullable :
    ((Ty.union [.nullable int, string]).isNullable = true ↔
      ∃ t ∈ [.nullable int, string, .nullable int], t.isNullable = true) ∧
    ((Ty.union [.nullable int, string]).isIdentifiedBy [.null] = true ↔
      ∃ t ∈ [.nullable int, string, .nullable int], t.isIdentifiedBy [.null] = true) ∧
    ((Ty.intersection [.object "A", .object "B"]).satisfies (· == .object "A") = true ↔
      ∀ t ∈ [Ty.object "A", .object "B"], t.satisfies (· == .object "A") = true) ∧
    ((Ty.nullable int).isIdentifiedBy [.null] = true ↔
      Kind.null ∈ [Kind.null] ∨ int.isIdentifiedBy [.null] = true) := by
  obtain ⟨union, intersection, orNull⟩ := unionOf_observed [.null] (· == .object "A")
  have known : ∀ t ∈ [.nullable int, string, .nullable int], WellFormed t := by
    simp [WellFormed.nullable int_wellFormed rfl, string_wellFormed]
  have classes : ∀ t ∈ [Ty.object "A", .object "B"], WellFormed t := by
    simp [WellFormed.object]
  have pair := union [.nullable int, string, .nullable int] (.union [.nullable int, string]) known rfl
  exact ⟨pair.1, (pair.2 (by decide)).1, (intersection _ _ classes rfl).1,
    orNull int _ int_wellFormed (by decide) rfl⟩

end

end TypeHints.Ty
