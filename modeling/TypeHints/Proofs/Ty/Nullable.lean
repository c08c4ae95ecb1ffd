import TypeHints.Proofs.Ty.WellFormed

namespace TypeHints.Ty

/-! ### Unions with null -/

theorem unionOf_congr {ts us : List Ty} (same : flatUnion ts = flatUnion us) :
    unionOf ts = unionOf us := by
  have same : (ts.flatMap unionMembers).eraseDups = (us.flatMap unionMembers).eraseDups := same
  simp only [unionOf, same]

theorem flatUnion_null (t : Ty) : flatUnion [t, null] = (t.unionMembers ++ [null]).eraseDups := rfl

theorem unionMembers_nodup {t : Ty} (known : WellFormed t) : t.unionMembers.Nodup := by
  cases known with
  | union _ _ distinct _ _ => exact distinct
  | _ => simp [unionMembers]

theorem unionMembers_joinable {t : Ty} (known : WellFormed t) (joinable : t.isStandalone = false) :
    ∀ s ∈ t.unionMembers, s.isStandalone = false := by
  cases known with
  | union _ _ _ _ members => exact members
  | _ => exact List.forall_mem_singleton.mpr joinable

theorem unionOf_null_of_new {t : Ty} (known : WellFormed t) (joinable : t.isStandalone = false)
    (new : null ∉ t.unionMembers) :
    unionOf [t, null] = .ok (.union (t.unionMembers ++ [null])) := by
  have distinct : (t.unionMembers ++ [null]).Nodup := by
    refine List.nodup_append.mpr ⟨unionMembers_nodup known, by simp, ?_⟩
    intro s member other single same
    rw [← List.mem_singleton.mp single, ← same] at new
    exact new member
  have flat : ∀ s ∈ t.unionMembers ++ [null], s.isUnion = false :=
    List.forall_mem_append.mpr ⟨fun s member => (unionMembers_wellFormed known member).2,
      List.forall_mem_singleton.mpr rfl⟩
  have joinable : ∀ s ∈ t.unionMembers ++ [null], s.isStandalone = false :=
    List.forall_mem_append.mpr ⟨unionMembers_joinable known joinable,
      List.forall_mem_singleton.mpr rfl⟩
  have several : 2 ≤ (t.unionMembers ++ [null]).length := by
    cases known with
    | union _ several _ _ _ =>
      rw [List.length_append]
      exact Nat.le_add_right_of_le several
    | _ => exact Nat.le_refl 2
  have same : flatUnion [t, null] = flatUnion (t.unionMembers ++ [null]) := by
    rw [flatUnion_self distinct flat, flatUnion_null, eraseDups_of_nodup distinct]
  rw [unionOf_congr same, unionOf_self several distinct flat joinable]

theorem unionOf_null_of_mem {t : Ty} (known : WellFormed t) (old : null ∈ t.unionMembers) :
    unionOf [t, null] = .ok t := by
  have nothing : [null].removeAll t.unionMembers = [] := by simp [List.removeAll, old]
  have single : [t].flatMap unionMembers = t.unionMembers := List.append_nil _
  have same : flatUnion [t, null] = flatUnion [t] := by
    rw [flatUnion_null, List.eraseDups_append, nothing, flatUnion, single]
    exact List.append_nil _
  rw [unionOf_congr same, unionOf_single known]

/-! ### What null is added to -/

theorem isKind_null_of_new {t : Ty} (known : WellFormed t) (new : null ∉ t.unionMembers) :
    ∀ s ∈ t.unionMembers, s.isKind .null = false := by
  intro s member
  refine Bool.eq_false_iff.mpr fun isNull => new ?_
  rwa [← eq_null_of_isKind (unionMembers_wellFormed known member).1 isNull]

theorem orNull_of_joinable {t : Ty} (joinable : t.isStandalone = false) : ∃ r, t.orNull = .ok r := by
  cases t with
  | builtin b =>
    have alone : b.kind.isStandalone = false := joinable
    by_cases accepts : b.kind.acceptsNull = true
    · exact ⟨_, if_pos accepts⟩
    · exact ⟨_, by simp [orNull, accepts, alone]; rfl⟩
  | union members =>
    simp only [orNull]
    split <;> exact ⟨_, rfl⟩
  | _ => exact ⟨_, rfl⟩

/-- The union with null comes to the same as the type, once null is added. -/
theorem orNull_union_null {t : Ty} (known : WellFormed t) (joinable : t.isStandalone = false)
    (new : null ∉ t.unionMembers) : (Ty.union (t.unionMembers ++ [null])).orNull = t.orNull := by
  have others := isKind_null_of_new known new
  have kept : t.unionMembers.filter (!isKind .null ·) = t.unionMembers :=
    List.filter_eq_self.mpr fun s member => by rw [others s member]; rfl
  have stripped : (t.unionMembers ++ [null]).filter (!isKind .null ·) = t.unionMembers := by
    rw [List.filter_append, kept]
    exact List.append_nil _
  rw [orNull, stripped]
  cases t with
  | union members =>
    have kept : members.filter (!isKind .null ·) = members := kept
    rw [orNull, kept]
    rfl
  | builtin b =>
    have alone : b.kind.isStandalone = false := joinable
    have other : b.kind ≠ .null := by simpa [isKind, unionMembers] using others
    simp [unionMembers, wrapNullable, orNull, alone, acceptsNull_of_other alone other]
  | _ => rfl

theorem standalone_cases {t : Ty} (known : WellFormed t) (alone : t.isStandalone = true) :
    t = mixed ∨ (unionOf [t, null] = .error (.standalone t) ∧ t.orNull = .error (.standalone t)) := by
  cases t with
  | builtin b =>
    obtain ⟨kind, refinement⟩ := b
    cases kind with
    | mixed => exact .inl (eq_mixed_of_isKind known rfl)
    | never | void => exact .inr ⟨rfl, rfl⟩
    | _ => cases alone
  | _ => cases alone

/-- Adding null and the union with null succeed and fail together, and by the same error. -/
theorem orNull_cases {t : Ty} (known : WellFormed t) :
    (∃ u r, unionOf [t, null] = .ok u ∧ u.orNull = .ok r ∧ t.orNull = .ok r) ∨
    ∃ e, unionOf [t, null] = .error e ∧ t.orNull = .error e := by
  by_cases alone : t.isStandalone = true
  · rcases standalone_cases known alone with rfl | ⟨union, orNull⟩
    · exact .inl ⟨mixed, mixed, rfl, rfl, rfl⟩
    · exact .inr ⟨_, union, orNull⟩
  · have joinable : t.isStandalone = false := Bool.eq_false_iff.mpr alone
    obtain ⟨r, built⟩ := orNull_of_joinable joinable
    by_cases old : null ∈ t.unionMembers
    · exact .inl ⟨t, r, unionOf_null_of_mem known old, built, built⟩
    · exact .inl ⟨_, r, unionOf_null_of_new known joinable old,
        (orNull_union_null known joinable old).trans built, built⟩

/-! ### What comes of it -/

theorem accepts_of_orNull {t r : Ty} (built : t.orNull = .ok r) :
    (∃ inner, r = .nullable inner) ∨ ∃ b, r = .builtin b ∧ b.kind.acceptsNull = true := by
  cases t with
  | builtin b =>
    simp only [orNull] at built
    split at built
    next accepts =>
      cases built
      exact .inr ⟨b, rfl, accepts⟩
    next =>
      split at built
      next => cases built
      next =>
        cases built
        exact .inl ⟨_, rfl⟩
  | union members =>
    simp only [orNull] at built
    split at built
    next s _ =>
      cases built
      exact .inl (by cases s <;> exact ⟨_, rfl⟩)
    next =>
      cases built
      exact .inl ⟨_, rfl⟩
  | _ =>
    cases built
    exact .inl ⟨_, rfl⟩

theorem isNullable_of_orNull {t r : Ty} (built : t.orNull = .ok r) : r.isNullable = true := by
  rcases accepts_of_orNull built with ⟨inner, rfl⟩ | ⟨b, rfl, accepts⟩
  · rfl
  · exact accepts

theorem orNull_orNull {t r : Ty} (built : t.orNull = .ok r) : r.orNull = .ok r := by
  rcases accepts_of_orNull built with ⟨inner, rfl⟩ | ⟨b, rfl, accepts⟩
  · rfl
  · exact if_pos accepts

theorem inner_of_takesNull {inner : Ty} (takes : inner.takesNull = true) :
    (∀ s, inner ≠ .nullable s) ∧ inner.isKind .null = false ∧ inner.isKind .mixed = false ∧
      ∀ members, inner = .union members → ∀ s ∈ members, s.isKind .null = false := by
  refine ⟨?_, ?_, ?_, ?_⟩
  · rintro s rfl
    cases takes
  · cases inner with
    | builtin b =>
      refine decide_eq_false fun isNull => ?_
      simp [takesNull, isNull, Kind.acceptsNull] at takes
    | _ => rfl
  · cases inner with
    | builtin b =>
      refine decide_eq_false fun isMixed => ?_
      simp [takesNull, isMixed, Kind.acceptsNull] at takes
    | _ => rfl
  · rintro members rfl s member
    simpa using List.all_eq_true.mp takes s member

/-- Null can be added to a type if and only if the type can be joined with null, and what stands in the
way is the same. What comes of it is nullable, takes null once only, and is also what comes of the union
with null; its `?` stands before nothing that has null already. -/
theorem orNull_collapses {t : Ty} (known : WellFormed t) :
    (∀ e, t.orNull = .error e ↔ unionOf [t, null] = .error e) ∧
    ∀ r, t.orNull = .ok r →
      r.isNullable = true ∧ r.orNull = .ok r ∧
      (∃ u, unionOf [t, null] = .ok u ∧ u.orNull = .ok r) ∧
      ∀ inner, r = .nullable inner →
        (∀ s, inner ≠ .nullable s) ∧ inner.isKind .null = false ∧ inner.isKind .mixed = false ∧
          ∀ members, inner = .union members → ∀ s ∈ members, s.isKind .null = false := by
  constructor
  · intro e
    rcases orNull_cases known with ⟨u, r, union, -, orNull⟩ | ⟨e', union, orNull⟩
    · simp [union, orNull]
    · rw [union, orNull]
  · intro r built
    refine ⟨isNullable_of_orNull built, orNull_orNull built, ?_, ?_⟩
    · rcases orNull_cases known with ⟨u, r', union, again, orNull⟩ | ⟨e, -, orNull⟩
      · cases orNull.symm.trans built
        exact ⟨u, union, again⟩
      · cases orNull.symm.trans built
    · rintro inner rfl
      cases orNull_wellFormed known built with
      | nullable _ takes => exact inner_of_takesNull takes

/-- A union of null and a nullable type, which is left alone. -/
theorem orNull_collapses_nullable :
    WellFormed (.union [.nullable int, null]) ∧
      (Ty.union [.nullable int, null]).orNull = .ok (.nullable int) ∧
      (∃ u, unionOf [.union [.nullable int, null], null] = .ok u ∧ u.orNull = .ok (.nullable int)) ∧
      ∀ s, int ≠ .nullable s := by
  have known : WellFormed (.union [.nullable int, null]) := by
    refine .union ?_ (Nat.le_refl 2) (by decide) (by decide) (by decide)
    exact List.forall_mem_cons.mpr ⟨.nullable int_wellFormed rfl,
      List.forall_mem_singleton.mpr (ofKind_wellFormed .null)⟩
  obtain ⟨-, built⟩ := orNull_collapses known
  obtain ⟨-, -, union, inner⟩ := built _ rfl
  exact ⟨known, rfl, union, (inner int rfl).1⟩

end TypeHints.Ty
