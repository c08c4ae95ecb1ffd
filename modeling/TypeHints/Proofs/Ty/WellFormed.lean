import TypeHints.Ty.Build

/-!
# Well-formed types

What holds at every depth of a type that the factories build: refinements narrow their own kind, `?`
stands before what has no null yet, unions and intersections have several distinct members and are
flat, and generics and collections wrap what may take arguments.
-/
namespace TypeHints

/-- A refinement narrows the kind of its builtin. -/
def Builtin.IsSound (b : Builtin) : Prop := ∀ r ∈ b.refinement, r.base = b.kind

namespace Ty

def takesNull : Ty → Bool
  | .nullable _ => false
  | .builtin b => !b.kind.acceptsNull && !b.kind.isStandalone
  | .union members => members.all (!isKind .null ·)
  | _ => true

def takesArgs (t : Ty) : Bool := t.isCollectionKind || t.isClassLike

inductive WellFormed : Ty → Prop where
  | builtin {b : Builtin} (sound : b.IsSound) : WellFormed (.builtin b)
  | nullable {inner : Ty} (known : WellFormed inner) (takes : inner.takesNull = true) :
      WellFormed (.nullable inner)
  | union {members : List Ty} (known : ∀ t ∈ members, WellFormed t) (several : 2 ≤ members.length)
      (distinct : members.Nodup) (flat : ∀ t ∈ members, t.isUnion = false)
      (joinable : ∀ t ∈ members, t.isStandalone = false) : WellFormed (.union members)
  | intersection {members : List Ty} (known : ∀ t ∈ members, WellFormed t)
      (several : 2 ≤ members.length) (distinct : members.Nodup)
      (flat : ∀ t ∈ members, t.isIntersection = false) : WellFormed (.intersection members)
  | object {className : String} : WellFormed (.object className)
  | enum {className : String} : WellFormed (.enum className)
  | backedEnum {className : String} {backing : Builtin} (sound : backing.IsSound)
      (kind : backing.kind = .int ∨ backing.kind = .string) :
      WellFormed (.backedEnum className backing)
  | collection {wrapped : Ty} {isList : Bool} (known : WellFormed wrapped)
      (takes : wrapped.takesArgs = true ∨ wrapped.isGeneric = true)
      (keys : isList = true → wrapped.keyType.isKind .int = true) :
      WellFormed (.collection wrapped isList)
  | generic {wrapped : Ty} {args : List Ty} (known : WellFormed wrapped)
      (knownArgs : ∀ t ∈ args, WellFormed t) (takes : wrapped.takesArgs = true) :
      WellFormed (.generic wrapped args)
  | template {name : String} {bound : Ty} (known : WellFormed bound) :
      WellFormed (.template name bound)

/-! ### Plain types -/

theorem ofKind_wellFormed (k : Kind) : WellFormed (ofKind k) := by
  refine .builtin ?_
  intro r absent
  cases absent

theorem mixed_wellFormed : WellFormed mixed := ofKind_wellFormed .mixed

theorem int_wellFormed : WellFormed int := ofKind_wellFormed .int

theorem string_wellFormed : WellFormed string := ofKind_wellFormed .string

theorem union_ofKind_wellFormed (ks : List Kind) (several : 2 ≤ ks.length) (distinct : ks.Nodup)
    (joinable : ∀ k ∈ ks, k.isStandalone = false) : WellFormed (.union (ks.map ofKind)) := by
  refine .union ?_ (by simpa using several) ?_ ?_ ?_
  · intro t member
    obtain ⟨k, -, rfl⟩ := List.mem_map.mp member
    exact ofKind_wellFormed k
  · rw [List.Nodup, List.pairwise_map]
    refine distinct.imp ?_
    intro a b different same
    injection same with same
    injection same with same
    exact different same
  · intro t member
    obtain ⟨k, -, rfl⟩ := List.mem_map.mp member
    rfl
  · intro t member
    obtain ⟨k, given, rfl⟩ := List.mem_map.mp member
    exact joinable k given

theorem arrayKey_wellFormed : WellFormed arrayKey :=
  union_ofKind_wellFormed [.int, .string] (by decide) (by decide) (by decide)

theorem isStandalone_of_isKind_mixed {t : Ty} (h : t.isKind .mixed = true) :
    t.isStandalone = true := by
  cases t with
  | builtin b =>
    have kind : b.kind = .mixed := by simpa [isKind] using h
    simp [isStandalone, kind, Kind.isStandalone]
  | _ => simp [isKind] at h

theorem eq_ofKind_of_isKind {kind : Kind} (unrefined : ∀ r : Refinement, r.base ≠ kind) {t : Ty}
    (known : WellFormed t) (h : t.isKind kind = true) : t = ofKind kind := by
  cases known with
  | @builtin b sound =>
    obtain ⟨own, refinement⟩ := b
    obtain rfl : own = kind := by simpa [isKind] using h
    cases refinement with
    | none => rfl
    | some r => exact absurd (sound r rfl) (unrefined r)
  | _ => simp [isKind] at h

theorem eq_null_of_isKind {t : Ty} (known : WellFormed t) (h : t.isKind .null = true) : t = null :=
  eq_ofKind_of_isKind (fun r => by cases r <;> exact nofun) known h

theorem eq_mixed_of_isKind {t : Ty} (known : WellFormed t) (h : t.isKind .mixed = true) : t = mixed :=
  eq_ofKind_of_isKind (fun r => by cases r <;> exact nofun) known h

theorem isKind_mixed_of_ne {t : Ty} (known : WellFormed t) (other : t ≠ mixed) :
    t.isKind .mixed = false :=
  Bool.eq_false_iff.mpr fun isMixed => other (eq_mixed_of_isKind known isMixed)

theorem unmixed_of_joinable {ts : List Ty} (joinable : ∀ t ∈ ts, t.isStandalone = false) :
    ts.any (isKind .mixed) = false := by
  refine List.any_eq_false.mpr fun t member mixed => ?_
  have alone := isStandalone_of_isKind_mixed mixed
  rw [joinable t member] at alone
  cases alone

/-! ### Parts of a type that takes arguments -/

theorem bare_wellFormed {t : Ty} (known : WellFormed t) : WellFormed t.bare := by
  cases t with
  | generic wrapped args =>
    cases known with
    | generic known _ _ => exact known
  | _ => exact known

theorem args_wellFormed {t : Ty} (known : WellFormed t) : ∀ a ∈ t.args, WellFormed a := by
  intro a member
  cases known with
  | generic _ knownArgs _ => exact knownArgs a member
  | _ => cases member

theorem keyType_wellFormed {t : Ty} (known : WellFormed t) : WellFormed t.keyType := by
  have known := args_wellFormed known
  unfold keyType
  split
  next key value given => exact known key (by simp [given])
  next => exact int_wellFormed
  next => exact arrayKey_wellFormed

/-! ### Builtins, enums and wrappers -/

theorem refined_ok {kind : Kind} {r : Refinement} {t : Ty} (built : refined kind r = .ok t) :
    t = .builtin ⟨kind, some r⟩ ∧ r.base = kind := by
  unfold refined at built
  split at built
  next base =>
    cases built
    exact ⟨rfl, base⟩
  next => cases built

theorem refined_wellFormed {kind : Kind} {r : Refinement} {t : Ty} (built : refined kind r = .ok t) :
    WellFormed t := by
  obtain ⟨rfl, base⟩ := refined_ok built
  refine .builtin ?_
  intro s given
  cases given
  exact base

theorem backedEnumOf_wellFormed {className : String} {backing : Builtin} {t : Ty}
    (sound : backing.IsSound) (built : backedEnumOf className backing = .ok t) : WellFormed t := by
  unfold backedEnumOf at built
  split at built
  next kind =>
    cases built
    exact .backedEnum sound kind
  next => cases built

theorem enumeration_wellFormed {className : String} {backing : Option Ty} {t : Ty}
    (known : ∀ b ∈ backing, WellFormed b) (built : enumeration className backing = .ok t) :
    WellFormed t := by
  unfold enumeration at built
  split at built
  next =>
    cases built
    exact .enum
  next b =>
    cases known _ rfl with
    | builtin sound => exact backedEnumOf_wellFormed sound built
  next => cases built

theorem genericOf_wellFormed {wrapped : Ty} {args : List Ty} {t : Ty} (known : WellFormed wrapped)
    (knownArgs : ∀ a ∈ args, WellFormed a) (built : wrapped.genericOf args = .ok t) :
    WellFormed t := by
  unfold genericOf at built
  split at built
  next takes =>
    cases built
    exact .generic known knownArgs takes
  next => cases built

theorem collectionOf_wellFormed {wrapped : Ty} {isList : Bool} {t : Ty} (known : WellFormed wrapped)
    (built : wrapped.collectionOf isList = .ok t) : WellFormed t := by
  unfold collectionOf at built
  split at built
  next => cases built
  next takes =>
    split at built
    next => cases built
    next keys =>
      cases built
      refine .collection known ?_ ?_
      · simpa only [takesArgs, Bool.not_eq_true', Bool.not_eq_false, Bool.or_eq_true] using takes
      · intro isList
        simpa [isList] using keys

theorem collectionWith_wellFormed {wrapped : Ty} {given : CollectionArgs} {t : Ty}
    (known : WellFormed wrapped) (knownValue : ∀ v ∈ given.value, WellFormed v)
    (knownKey : ∀ k ∈ given.key, WellFormed k) (built : wrapped.collectionWith given = .ok t) :
    WellFormed t := by
  unfold collectionWith at built
  split at built
  next => exact collectionOf_wellFormed known built
  next =>
    split at built
    next => cases built
    next =>
      cases made : wrapped.genericOf [given.key.getD arrayKey, given.value.getD mixed] with
      | error e =>
        rw [made] at built
        cases built
      | ok generic =>
        rw [made] at built
        refine collectionOf_wellFormed (genericOf_wellFormed known ?_ made) built
        have key : WellFormed (given.key.getD arrayKey) := by
          cases chosen : given.key with
          | none => exact arrayKey_wellFormed
          | some k => exact knownKey k chosen
        have value : WellFormed (given.value.getD mixed) := by
          cases chosen : given.value with
          | none => exact mixed_wellFormed
          | some v => exact knownValue v chosen
        intro a member
        rcases List.mem_cons.mp member with rfl | member
        · exact key
        · obtain rfl := List.mem_singleton.mp member
          exact value

theorem takesArgs_ofKind {kind : Kind} (takes : kind.isCollection = true) :
    (ofKind kind).takesArgs = true := by
  simp [takesArgs, isCollectionKind, ofKind, takes]

theorem plain_wellFormed {kind : Kind} (takes : kind.isCollection = true) :
    WellFormed (.collection (ofKind kind) false) :=
  .collection (ofKind_wellFormed kind) (.inl (takesArgs_ofKind takes)) nofun

theorem keyed_wellFormed {kind : Kind} {key value : Ty} {isList : Bool}
    (takes : kind.isCollection = true) (knownKey : WellFormed key) (knownValue : WellFormed value)
    (keys : isList = true → key.isKind .int = true) : WellFormed (keyed kind key value isList) := by
  have generic : WellFormed (.generic (ofKind kind) [key, value]) := by
    refine .generic (ofKind_wellFormed kind) ?_ ?_
    · intro a member
      rcases List.mem_cons.mp member with rfl | member
      · exact knownKey
      · obtain rfl := List.mem_singleton.mp member
        exact knownValue
    · exact takesArgs_ofKind takes
  exact .collection generic (.inr rfl) keys

theorem listOf_wellFormed {value : Ty} (known : WellFormed value) : WellFormed (listOf value) :=
  keyed_wellFormed rfl int_wellFormed known (fun _ => rfl)

/-! ### Unions and intersections -/

theorem nodup_eraseDups : (ts : List Ty) → ts.eraseDups.Nodup
  | [] => List.nodup_nil
  | t :: rest => by
    rw [List.eraseDups_cons, List.nodup_cons]
    refine ⟨?_, nodup_eraseDups _⟩
    rw [List.mem_eraseDups]
    intro member
    have different := (List.mem_filter.mp member).2
    simp at different
termination_by ts => ts.length
decreasing_by exact Nat.lt_succ_of_le (List.length_filter_le _ _)

theorem two_le_length {ts : List Ty} (none : ts = [] → False) (single : ∀ t, ts = [t] → False) :
    2 ≤ ts.length := by
  cases ts with
  | nil => exact absurd rfl none
  | cons t rest =>
    cases rest with
    | nil => exact absurd rfl (single t)
    | cons _ _ => simp

theorem exists_of_two_le_length {ts : List Ty} (several : 2 ≤ ts.length) :
    ∃ a b rest, ts = a :: b :: rest := by
  cases ts with
  | nil => cases several
  | cons a ts =>
    cases ts with
    | nil => exact absurd several (by simp)
    | cons b rest => exact ⟨a, b, rest, rfl⟩

def flatUnion (members : List Ty) : List Ty := (members.flatMap unionMembers).eraseDups

def flatIntersection (members : List Ty) : List Ty :=
  (members.flatMap intersectionMembers).eraseDups

theorem mem_flatUnion {members : List Ty} {s : Ty} :
    s ∈ flatUnion members ↔ ∃ t ∈ members, s ∈ t.unionMembers := by
  simp [flatUnion]

theorem mem_flatIntersection {members : List Ty} {s : Ty} :
    s ∈ flatIntersection members ↔ ∃ t ∈ members, s ∈ t.intersectionMembers := by
  simp [flatIntersection]

theorem unionMembers_wellFormed {t s : Ty} (known : WellFormed t) (member : s ∈ t.unionMembers) :
    WellFormed s ∧ s.isUnion = false := by
  cases t with
  | union members =>
    cases known with
    | union known _ _ flat _ => exact ⟨known s member, flat s member⟩
  | _ =>
    obtain rfl := List.mem_singleton.mp member
    exact ⟨known, rfl⟩

theorem intersectionMembers_wellFormed {t s : Ty} (known : WellFormed t)
    (member : s ∈ t.intersectionMembers) : WellFormed s ∧ s.isIntersection = false := by
  cases t with
  | intersection members =>
    cases known with
    | intersection known _ _ flat => exact ⟨known s member, flat s member⟩
  | _ =>
    obtain rfl := List.mem_singleton.mp member
    exact ⟨known, rfl⟩

theorem flatUnion_wellFormed {members : List Ty} (known : ∀ t ∈ members, WellFormed t) {s : Ty}
    (member : s ∈ flatUnion members) : WellFormed s ∧ s.isUnion = false := by
  obtain ⟨t, given, member⟩ := mem_flatUnion.mp member
  exact unionMembers_wellFormed (known t given) member

theorem flatIntersection_wellFormed {members : List Ty} (known : ∀ t ∈ members, WellFormed t)
    {s : Ty} (member : s ∈ flatIntersection members) : WellFormed s ∧ s.isIntersection = false := by
  obtain ⟨t, given, member⟩ := mem_flatIntersection.mp member
  exact intersectionMembers_wellFormed (known t given) member

/-- A union is `mixed`, its only member, or all of its members. -/
theorem unionOf_cases {members : List Ty} {t : Ty} (built : unionOf members = .ok t) :
    (t = mixed ∧ ∃ s ∈ flatUnion members, s.isKind .mixed = true) ∨
    flatUnion members = [t] ∨
    (t = .union (flatUnion members) ∧ 2 ≤ (flatUnion members).length ∧
      ∀ s ∈ flatUnion members, s.isStandalone = false) := by
  have shape : (members.flatMap unionMembers).eraseDups = flatUnion members := rfl
  simp only [unionOf, shape] at built
  split at built
  next hasMixed =>
    cases built
    exact .inl ⟨rfl, List.any_eq_true.mp hasMixed⟩
  next =>
    refine .inr ?_
    split at built
    next => cases built
    next single =>
      cases built
      exact .inl single
    next none single =>
      refine .inr ?_
      split at built
      next => cases built
      next absent =>
        cases built
        refine ⟨rfl, two_le_length none single, ?_⟩
        intro s member
        simpa using List.find?_eq_none.mp absent s member

theorem intersectionOf_cases {members : List Ty} {t : Ty} (built : intersectionOf members = .ok t) :
    flatIntersection members = [t] ∨
    (t = .intersection (flatIntersection members) ∧ 2 ≤ (flatIntersection members).length) := by
  have shape : (members.flatMap intersectionMembers).eraseDups = flatIntersection members := rfl
  simp only [intersectionOf, shape] at built
  split at built
  next => cases built
  next single =>
    cases built
    exact .inl single
  next none single =>
    cases built
    exact .inr ⟨rfl, two_le_length none single⟩

theorem unionOf_wellFormed {members : List Ty} {t : Ty} (known : ∀ t ∈ members, WellFormed t)
    (built : unionOf members = .ok t) : WellFormed t := by
  obtain ⟨rfl, -⟩ | single | ⟨rfl, several, joinable⟩ := unionOf_cases built
  · exact mixed_wellFormed
  · exact (flatUnion_wellFormed known (s := t) (by simp [single])).1
  · exact .union (fun s member => (flatUnion_wellFormed known member).1) several
      (nodup_eraseDups _) (fun s member => (flatUnion_wellFormed known member).2) joinable

theorem intersectionOf_wellFormed {members : List Ty} {t : Ty} (known : ∀ t ∈ members, WellFormed t)
    (built : intersectionOf members = .ok t) : WellFormed t := by
  obtain single | ⟨rfl, several⟩ := intersectionOf_cases built
  · exact (flatIntersection_wellFormed known (s := t) (by simp [single])).1
  · exact .intersection (fun s member => (flatIntersection_wellFormed known member).1) several
      (nodup_eraseDups _) (fun s member => (flatIntersection_wellFormed known member).2)

/-! ### Nullable types -/

theorem acceptsNull_of_other {k : Kind} (joinable : k.isStandalone = false) (other : k ≠ .null) :
    k.acceptsNull = false := by
  cases k with
  | null => exact absurd rfl other
  | mixed => cases joinable
  | _ => rfl

theorem wrapNullable_wellFormed {t : Ty} (known : WellFormed t) (flat : t.isUnion = false)
    (joinable : t.isStandalone = false) (other : t.isKind .null = false) :
    WellFormed (wrapNullable t) := by
  cases t with
  | nullable inner => exact known
  | union members => cases flat
  | builtin b =>
    have joinable : b.kind.isStandalone = false := joinable
    have other : b.kind ≠ .null := by simpa [isKind] using other
    refine .nullable known ?_
    simp [takesNull, joinable, acceptsNull_of_other joinable other]
  | _ => exact .nullable known rfl

theorem exists_other_member {members : List Ty} (known : ∀ t ∈ members, WellFormed t)
    (several : 2 ≤ members.length) (distinct : members.Nodup) :
    ∃ t ∈ members, t.isKind .null = false := by
  obtain ⟨a, b, rest, rfl⟩ := exists_of_two_le_length several
  by_cases first : a.isKind .null = true
  · refine ⟨b, by simp, Bool.eq_false_iff.mpr ?_⟩
    intro second
    have same : a = b := (eq_null_of_isKind (known a (by simp)) first).trans
      (eq_null_of_isKind (known b (by simp)) second).symm
    simp [same] at distinct
  · exact ⟨a, by simp, by simpa using first⟩

theorem orNull_wellFormed {t r : Ty} (known : WellFormed t) (built : t.orNull = .ok r) :
    WellFormed r := by
  cases t with
  | nullable inner =>
    cases built
    exact known
  | builtin b =>
    simp only [orNull] at built
    split at built
    next =>
      cases built
      exact known
    next accepts =>
      split at built
      next => cases built
      next alone =>
        cases built
        exact .nullable known (by simp [takesNull, accepts, alone])
  | union members =>
    cases known with
    | union known several distinct flat joinable =>
      have keeps : ∀ s ∈ members.filter (!isKind .null ·), s ∈ members ∧ s.isKind .null = false := by
        intro s member
        simpa using List.mem_filter.mp member
      simp only [orNull] at built
      split at built
      next s single =>
        cases built
        obtain ⟨member, other⟩ := keeps s (by simp [single])
        exact wrapNullable_wellFormed (known s member) (flat s member) (joinable s member) other
      next single =>
        cases built
        refine .nullable (.union ?_ ?_ ?_ ?_ ?_) ?_
        · exact fun s member => known s (keeps s member).1
        · refine two_le_length ?_ single
          intro none
          obtain ⟨s, member, other⟩ := exists_other_member known several distinct
          have kept : s ∈ members.filter (!isKind .null ·) :=
            List.mem_filter.mpr ⟨member, by simp [other]⟩
          rw [none] at kept
          cases kept
        · exact distinct.filter _
        · exact fun s member => flat s (keeps s member).1
        · exact fun s member => joinable s (keeps s member).1
        · simp [takesNull]
  | _ =>
    cases built
    exact .nullable known rfl

/-! ### What is built already -/

theorem eraseDups_of_nodup {ts : List Ty} (distinct : ts.Nodup) : ts.eraseDups = ts := by
  induction ts with
  | nil => rfl
  | cons t rest ih =>
    rw [List.nodup_cons] at distinct
    have kept : rest.filter (fun s => !s == t) = rest := by
      refine List.filter_eq_self.mpr fun s member => ?_
      have other : s ≠ t := by
        rintro rfl
        exact distinct.1 member
      simpa using other
    rw [List.eraseDups_cons, kept, ih distinct.2]

theorem flatMap_single {f : Ty → List Ty} {ts : List Ty} (h : ∀ t ∈ ts, f t = [t]) :
    ts.flatMap f = ts := by
  induction ts with
  | nil => rfl
  | cons t rest ih =>
    rw [List.forall_mem_cons] at h
    rw [List.flatMap_cons, h.1, ih h.2]
    rfl

theorem unionMembers_of_flat {t : Ty} (flat : t.isUnion = false) : t.unionMembers = [t] := by
  cases t with
  | union => cases flat
  | _ => rfl

theorem intersectionMembers_of_flat {t : Ty} (flat : t.isIntersection = false) :
    t.intersectionMembers = [t] := by
  cases t with
  | intersection => cases flat
  | _ => rfl

theorem flatUnion_self {members : List Ty} (distinct : members.Nodup)
    (flat : ∀ t ∈ members, t.isUnion = false) : flatUnion members = members := by
  rw [flatUnion, flatMap_single fun t member => unionMembers_of_flat (flat t member),
    eraseDups_of_nodup distinct]

theorem flatIntersection_self {members : List Ty} (distinct : members.Nodup)
    (flat : ∀ t ∈ members, t.isIntersection = false) : flatIntersection members = members := by
  rw [flatIntersection, flatMap_single fun t member => intersectionMembers_of_flat (flat t member),
    eraseDups_of_nodup distinct]

theorem unionOf_self {members : List Ty} (several : 2 ≤ members.length) (distinct : members.Nodup)
    (flat : ∀ t ∈ members, t.isUnion = false) (joinable : ∀ t ∈ members, t.isStandalone = false) :
    unionOf members = .ok (.union members) := by
  have same : (members.flatMap unionMembers).eraseDups = members := flatUnion_self distinct flat
  have unmixed : members.any (isKind .mixed) = false := unmixed_of_joinable joinable
  have joined : members.find? isStandalone = none := by
    refine List.find?_eq_none.mpr fun t member => ?_
    rw [joinable t member]
    exact Bool.false_ne_true
  simp only [unionOf, same, unmixed, Bool.false_eq_true, if_false]
  obtain ⟨a, b, rest, rfl⟩ := exists_of_two_le_length several
  simp only [joined]

theorem intersectionOf_self {members : List Ty} (several : 2 ≤ members.length)
    (distinct : members.Nodup) (flat : ∀ t ∈ members, t.isIntersection = false) :
    intersectionOf members = .ok (.intersection members) := by
  have same : (members.flatMap intersectionMembers).eraseDups = members :=
    flatIntersection_self distinct flat
  simp only [intersectionOf, same]
  obtain ⟨a, b, rest, rfl⟩ := exists_of_two_le_length several
  rfl

theorem unionOf_single {t : Ty} (known : WellFormed t) : unionOf [t] = .ok t := by
  cases known with
  | @union members _ several distinct flat joinable =>
    have shape : [Ty.union members].flatMap unionMembers = members := List.append_nil members
    have same : members.flatMap unionMembers = members :=
      flatMap_single fun t member => unionMembers_of_flat (flat t member)
    have built := unionOf_self several distinct flat joinable
    rw [unionOf, same] at built
    rw [unionOf, shape]
    exact built
  | @builtin b sound =>
    cases isMixed : (Ty.builtin b).isKind .mixed with
    | false => simp [unionOf, unionMembers, List.eraseDups_cons, isMixed]
    | true =>
      rw [eq_mixed_of_isKind (.builtin sound) isMixed]
      rfl
  | _ => rfl

theorem intersectionOf_single {t : Ty} (known : WellFormed t) : intersectionOf [t] = .ok t := by
  cases known with
  | @intersection members _ several distinct flat =>
    have shape : [Ty.intersection members].flatMap intersectionMembers = members :=
      List.append_nil members
    have same : members.flatMap intersectionMembers = members :=
      flatMap_single fun t member => intersectionMembers_of_flat (flat t member)
    have built := intersectionOf_self several distinct flat
    rw [intersectionOf, same] at built
    rw [intersectionOf, shape]
    exact built
  | _ => rfl

theorem unionOf_of_mixed_mem {ts : List Ty} {t : Ty} (member : t ∈ flatUnion ts)
    (isMixed : t.isKind .mixed = true) : unionOf ts = .ok mixed := by
  have shape : (ts.flatMap unionMembers).eraseDups = flatUnion ts := rfl
  have found : (flatUnion ts).any (isKind .mixed) = true := List.any_eq_true.mpr ⟨t, member, isMixed⟩
  simp only [unionOf, shape, found, if_true]

theorem unionOf_mixed {ts : List Ty} (isMixed : ts.any (isKind .mixed) = true) :
    unionOf ts = .ok mixed := by
  obtain ⟨t, member, isMixed⟩ := List.any_eq_true.mp isMixed
  have own : t ∈ t.unionMembers := by
    cases t with
    | builtin b => exact List.mem_singleton_self _
    | _ => cases isMixed
  exact unionOf_of_mixed_mem (mem_flatUnion.mpr ⟨t, member, own⟩) isMixed

theorem orNull_of_takesNull {t : Ty} (takes : t.takesNull = true)
    (several : ∀ members, t = .union members → 2 ≤ members.length) :
    t.orNull = .ok (.nullable t) := by
  cases t with
  | nullable => cases takes
  | builtin b =>
    simp only [takesNull, Bool.and_eq_true, Bool.not_eq_true'] at takes
    simp [orNull, takes]
  | union members =>
    have kept : members.filter (!isKind .null ·) = members :=
      List.filter_eq_self.mpr (List.all_eq_true.mp takes)
    simp only [orNull, kept]
    obtain ⟨a, b, rest, rfl⟩ := exists_of_two_le_length (several members rfl)
    rfl
  | _ => rfl

end Ty

/-! ### All factories -/

/-- A call of one of the factories. -/
inductive Factory where
  | builtin (kind : Kind)
  | refined (kind : Kind) (r : Refinement)
  | object (className : String)
  | enum (className : String)
  | enumeration (className : String) (backing : Option Ty)
  | template (name : String) (bound : Ty)
  | generic (wrapped : Ty) (args : List Ty)
  | collection (wrapped : Ty) (given : Ty.CollectionArgs)
  | array
  | arrayOf (value : Ty)
  | arrayWith (given : Ty.CollectionArgs)
  | list
  | listOf (value : Ty)
  | dict
  | dictOf (value : Ty)
  | iterable
  | iterableOf (value : Ty)
  | iterableWith (given : Ty.CollectionArgs)
  | arrayKey
  | union (members : List Ty)
  | intersection (members : List Ty)
  | orNull (t : Ty)

namespace Factory
open Ty

def argsOf (given : CollectionArgs) : List Ty := given.value.toList ++ given.key.toList

def args : Factory → List Ty
  | .enumeration _ backing => backing.toList
  | .template _ bound => [bound]
  | .generic wrapped args => wrapped :: args
  | .collection wrapped given => wrapped :: argsOf given
  | .arrayWith given | .iterableWith given => argsOf given
  | .arrayOf value | .listOf value | .dictOf value | .iterableOf value => [value]
  | .union members | .intersection members => members
  | .orNull t => [t]
  | _ => []

def build : Factory → Built
  | .builtin kind => .ok (ofKind kind)
  | .refined kind r => Ty.refined kind r
  | .object className => .ok (.object className)
  | .enum className => .ok (.enum className)
  | .enumeration className backing => Ty.enumeration className backing
  | .template name bound => .ok (.template name bound)
  | .generic wrapped args => wrapped.genericOf args
  | .collection wrapped given => wrapped.collectionWith given
  | .array => .ok Ty.array
  | .arrayOf value => .ok (Ty.arrayOf value)
  | .arrayWith given => (ofKind .array).collectionWith given
  | .list => .ok Ty.list
  | .listOf value => .ok (Ty.listOf value)
  | .dict => .ok Ty.dict
  | .dictOf value => .ok (Ty.dictOf value)
  | .iterable => .ok Ty.iterable
  | .iterableOf value => .ok (Ty.iterableOf value)
  | .iterableWith given => (ofKind .iterable).collectionWith given
  | .arrayKey => .ok Ty.arrayKey
  | .union members => unionOf members
  | .intersection members => intersectionOf members
  | .orNull t => t.orNull

theorem collectionWith_wellFormed {wrapped : Ty} {given : CollectionArgs} {t : Ty}
    (known : WellFormed wrapped) (knownArgs : ∀ a ∈ argsOf given, WellFormed a)
    (built : wrapped.collectionWith given = .ok t) : WellFormed t := by
  refine Ty.collectionWith_wellFormed known ?_ ?_ built
  · intro v chosen
    exact knownArgs v (by simp [argsOf, Option.mem_def.mp chosen])
  · intro k chosen
    exact knownArgs k (by simp [argsOf, Option.mem_def.mp chosen])

theorem build_wellFormed {call : Factory} {t : Ty} (known : ∀ a ∈ call.args, WellFormed a)
    (built : call.build = .ok t) : WellFormed t := by
  cases call with
  | builtin kind =>
    cases built
    exact ofKind_wellFormed kind
  | refined kind r => exact refined_wellFormed built
  | object className =>
    cases built
    exact .object
  | enum className =>
    cases built
    exact .enum
  | enumeration className backing =>
    exact enumeration_wellFormed (fun b given => known b (by simpa [args] using given)) built
  | template name bound =>
    cases built
    exact .template (known bound (by simp [args]))
  | generic wrapped vars =>
    exact genericOf_wellFormed (known wrapped (by simp [args]))
      (fun a given => known a (by simp [args, given])) built
  | collection wrapped given =>
    exact collectionWith_wellFormed (known wrapped (by simp [args]))
      (fun a given => known a (by simp [args, given])) built
  | array =>
    cases built
    exact plain_wellFormed rfl
  | arrayOf value =>
    cases built
    exact keyed_wellFormed rfl arrayKey_wellFormed (known value (by simp [args])) nofun
  | arrayWith given => exact collectionWith_wellFormed (ofKind_wellFormed _) known built
  | list =>
    cases built
    exact listOf_wellFormed mixed_wellFormed
  | listOf value =>
    cases built
    exact listOf_wellFormed (known value (by simp [args]))
  | dict =>
    cases built
    exact keyed_wellFormed rfl string_wellFormed mixed_wellFormed nofun
  | dictOf value =>
    cases built
    exact keyed_wellFormed rfl string_wellFormed (known value (by simp [args])) nofun
  | iterable =>
    cases built
    exact plain_wellFormed rfl
  | iterableOf value =>
    cases built
    exact keyed_wellFormed rfl arrayKey_wellFormed (known value (by simp [args])) nofun
  | iterableWith given => exact collectionWith_wellFormed (ofKind_wellFormed _) known built
  | arrayKey =>
    cases built
    exact arrayKey_wellFormed
  | union members => exact unionOf_wellFormed known built
  | intersection members => exact intersectionOf_wellFormed known built
  | orNull t => exact orNull_wellFormed (known t (by simp [args])) built

end Factory

end TypeHints
