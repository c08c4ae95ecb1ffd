import TypeHints.Proofs.Except
import TypeHints.Proofs.Ty.Nullable

/-!
A union that is built from some of the members first comes to the same as the union of all of them,
and so does an intersection; the order of the members of a union changes only the order of what
comes of it.
-/
namespace TypeHints.Ty

/-! ### Lists without repetitions -/

theorem filter_eraseDups (p : Ty → Bool) : (ts : List Ty) →
    ts.eraseDups.filter p = (ts.filter p).eraseDups
  | [] => rfl
  | t :: rest => by
    have ih := filter_eraseDups p (rest.filter fun s => !s == t)
    rw [List.eraseDups_cons]
    by_cases kept : p t = true
    · rw [List.filter_cons_of_pos kept, List.filter_cons_of_pos kept, List.eraseDups_cons, ih,
        List.filter_filter, List.filter_filter]
      simp only [Bool.and_comm]
    · rw [List.filter_cons_of_neg kept, List.filter_cons_of_neg kept, ih, List.filter_filter]
      -- What `p` keeps is another type than `t`, which it does not keep.
      have same : ∀ s ∈ rest, (p s && !s == t) = p s := by
        intro s _
        by_cases other : s = t
        · subst s
          simp [kept]
        · simp [other]
      rw [List.filter_congr same]
termination_by ts => ts.length
decreasing_by exact Nat.lt_succ_of_le (List.length_filter_le _ _)

theorem removeAll_congr {ts us vs : List Ty} (same : ∀ t, t ∈ us ↔ t ∈ vs) :
    ts.removeAll us = ts.removeAll vs := by
  unfold List.removeAll
  apply List.filter_congr
  intro t _
  simp [same t]

theorem eraseDups_splice (as bs cs : List Ty) :
    (as ++ (bs.eraseDups ++ cs)).eraseDups = (as ++ (bs ++ cs)).eraseDups := by
  have behind (bs cs : List Ty) : (bs.eraseDups ++ cs).eraseDups = (bs ++ cs).eraseDups := by
    have dropped : cs.removeAll bs.eraseDups = cs.removeAll bs :=
      removeAll_congr fun t => List.mem_eraseDups
    rw [List.eraseDups_append, List.eraseDups_append, dropped, eraseDups_of_nodup (nodup_eraseDups bs)]
  have inner : (bs.eraseDups ++ cs).removeAll as =
      (bs.removeAll as).eraseDups ++ cs.removeAll as := by
    unfold List.removeAll
    rw [List.filter_append, filter_eraseDups]
  have outer : (bs ++ cs).removeAll as = bs.removeAll as ++ cs.removeAll as := by
    unfold List.removeAll
    exact List.filter_append ..
  rw [List.eraseDups_append, List.eraseDups_append, inner, outer, behind]

theorem flatMap_splice {f : Ty → List Ty} {ys : List Ty} {u : Ty}
    (same : f u = (ys.flatMap f).eraseDups) (xs zs : List Ty) :
    ((xs ++ u :: zs).flatMap f).eraseDups = ((xs ++ (ys ++ zs)).flatMap f).eraseDups := by
  rw [List.flatMap_append, List.flatMap_cons, List.flatMap_append, List.flatMap_append, same]
  exact eraseDups_splice _ _ _

/-! ### One group -/

/-- A type that is built as a union can take the place of the members that it was built from. -/
theorem unionOf_splice {xs ys zs : List Ty} {u : Ty} (known : ∀ t ∈ ys, WellFormed t)
    (built : unionOf ys = .ok u) : unionOf (xs ++ u :: zs) = unionOf (xs ++ (ys ++ zs)) := by
  have flat {t : Ty} (member : t ∈ flatUnion ys) : t.unionMembers = [t] :=
    unionMembers_of_flat (flatUnion_wellFormed known member).2
  rcases unionOf_cases built with ⟨rfl, t, member, isMixed⟩ | single | ⟨rfl, -, -⟩
  · obtain ⟨s, given, brought⟩ := mem_flatUnion.mp member
    have left : unionOf (xs ++ mixed :: zs) = .ok mixed := unionOf_mixed (by simp [mixed, ofKind, isKind])
    have right : t ∈ flatUnion (xs ++ (ys ++ zs)) := mem_flatUnion.mpr ⟨s, by simp [given], brought⟩
    rw [left, unionOf_of_mixed_mem right isMixed]
  · apply unionOf_congr
    apply flatMap_splice
    rw [flat (by simp [single])]
    exact single.symm
  · apply unionOf_congr
    apply flatMap_splice
    rfl

theorem intersectionOf_congr {ts us : List Ty} (same : flatIntersection ts = flatIntersection us) :
    intersectionOf ts = intersectionOf us := by
  have same : (ts.flatMap intersectionMembers).eraseDups =
    (us.flatMap intersectionMembers).eraseDups := same
  simp only [intersectionOf, same]

theorem intersectionOf_splice {xs ys zs : List Ty} {u : Ty} (known : ∀ t ∈ ys, WellFormed t)
    (built : intersectionOf ys = .ok u) :
    intersectionOf (xs ++ u :: zs) = intersectionOf (xs ++ (ys ++ zs)) := by
  apply intersectionOf_congr
  apply flatMap_splice
  rcases intersectionOf_cases built with single | ⟨rfl, -⟩
  · have member : u ∈ flatIntersection ys := by simp [single]
    rw [intersectionMembers_of_flat (flatIntersection_wellFormed known member).2]
    exact single.symm
  · rfl

/-! ### Groups within groups -/

/-- Types in groups, which are built from the inside out. -/
inductive Grouping where
  | type (t : Ty)
  | group (parts : List Grouping)

namespace Grouping

mutual

def types : Grouping → List Ty
  | .type t => [t]
  | .group parts => typesAll parts

def typesAll : List Grouping → List Ty
  | [] => []
  | g :: rest => g.types ++ typesAll rest

end

mutual

def build (join : List Ty → Built) : Grouping → Built
  | .type t => .ok t
  | .group parts => do join (← buildAll join parts)

def buildAll (join : List Ty → Built) : List Grouping → Except ConstructionError (List Ty)
  | [] => .ok []
  | g :: rest => do return (← g.build join) :: (← buildAll join rest)

end

end Grouping

/-- What a factory has to do with one group for groups within groups to make no difference. -/
structure Splices (join : List Ty → Built) : Prop where
  single : ∀ {t}, WellFormed t → join [t] = .ok t
  wellFormed : ∀ {ts u}, (∀ t ∈ ts, WellFormed t) → join ts = .ok u → WellFormed u
  splice : ∀ {xs ys zs u}, (∀ t ∈ ys, WellFormed t) → join ys = .ok u →
    join (xs ++ u :: zs) = join (xs ++ (ys ++ zs))

theorem unionOf_splices : Splices unionOf := ⟨unionOf_single, unionOf_wellFormed, unionOf_splice⟩

theorem intersectionOf_splices : Splices intersectionOf :=
  ⟨intersectionOf_single, intersectionOf_wellFormed, intersectionOf_splice⟩

section
variable {join : List Ty → Built} (splices : Splices join)
include splices

mutual

theorem Splices.build_eq {g : Grouping} {u : Ty} (known : ∀ t ∈ g.types, WellFormed t)
    (built : g.build join = .ok u) : join g.types = .ok u := by
  match g with
  | .type s =>
    rw [Grouping.types] at known ⊢
    rw [Grouping.build] at built
    cases built
    exact splices.single (known _ List.mem_cons_self)
  | .group parts =>
    rw [Grouping.types] at known ⊢
    rw [Grouping.build] at built
    obtain ⟨us, inner, outer⟩ := bind_eq_ok.mp built
    exact (Splices.buildAll_eq known inner []).symm.trans outer

theorem Splices.buildAll_eq {parts : List Grouping} {us : List Ty}
    (known : ∀ t ∈ Grouping.typesAll parts, WellFormed t)
    (built : Grouping.buildAll join parts = .ok us) (front : List Ty) :
    join (front ++ us) = join (front ++ Grouping.typesAll parts) := by
  match parts with
  | [] =>
    rw [Grouping.buildAll] at built
    cases built
    rw [Grouping.typesAll]
  | g :: rest =>
    rw [Grouping.typesAll] at known ⊢
    rw [Grouping.buildAll] at built
    obtain ⟨u, first, built⟩ := bind_eq_ok.mp built
    obtain ⟨others, later, built⟩ := bind_eq_ok.mp built
    cases built
    rw [List.forall_mem_append] at known
    -- The first group gives way to its types, which then stand in front of the other groups.
    have group := Splices.build_eq known.1 first
    calc join (front ++ u :: others)
        = join (front ++ (g.types ++ others)) := splices.splice known.1 group
      _ = join ((front ++ g.types) ++ others) := by rw [List.append_assoc]
      _ = join ((front ++ g.types) ++ Grouping.typesAll rest) :=
        Splices.buildAll_eq known.2 later (front ++ g.types)
      _ = join (front ++ (g.types ++ Grouping.typesAll rest)) := by rw [List.append_assoc]

end

end

/-! ### Any order -/

theorem unionOf_flatUnion {ts : List Ty} (known : ∀ t ∈ ts, WellFormed t) :
    unionOf (flatUnion ts) = unionOf ts := by
  apply unionOf_congr
  exact flatUnion_self (nodup_eraseDups _) fun t member => (flatUnion_wellFormed known member).2

theorem flatUnion_perm {ts us : List Ty} (order : ts.Perm us) :
    (flatUnion us).Perm (flatUnion ts) := by
  apply (List.perm_ext_iff_of_nodup (nodup_eraseDups _) (nodup_eraseDups _)).mpr
  intro t
  show t ∈ flatUnion us ↔ t ∈ flatUnion ts
  rw [mem_flatUnion, mem_flatUnion]
  simp only [order.mem_iff]

theorem unionOf_perm {ts us : List Ty} {u : Ty} (known : ∀ t ∈ ts, WellFormed t)
    (order : ts.Perm us) (built : unionOf ts = .ok u) :
    ∃ v, unionOf us = .ok v ∧ v.unionMembers.Perm u.unionMembers := by
  have knownUs : ∀ t ∈ us, WellFormed t := fun t member => known t (order.mem_iff.mpr member)
  have flat := flatUnion_perm order
  rcases unionOf_cases built with ⟨rfl, t, member, isMixed⟩ | single | ⟨rfl, several, joinable⟩
  · exact ⟨mixed, unionOf_of_mixed_mem (flat.mem_iff.mpr member) isMixed, .refl _⟩
  · rw [single] at flat
    have same : flatUnion us = [u] := List.perm_singleton.mp flat
    have knownU : WellFormed u := unionOf_wellFormed known built
    refine ⟨u, ?_, .refl _⟩
    rw [← unionOf_flatUnion knownUs, same]
    exact unionOf_single knownU
  · have enough : 2 ≤ (flatUnion us).length := by
      rw [flat.length_eq]
      exact several
    refine ⟨.union (flatUnion us), ?_, flat⟩
    rw [← unionOf_flatUnion knownUs]
    apply unionOf_self enough (nodup_eraseDups _)
    · exact fun t member => (flatUnion_wellFormed knownUs member).2
    · exact fun t member => joinable t (flat.mem_iff.mp member)

/-! ### The laws -/

theorem unionOf_members {ms : List Ty} (known : WellFormed (.union ms)) :
    unionOf ms = .ok (.union ms) := by
  cases known with
  | union _ several distinct flat joinable => exact unionOf_self several distinct flat joinable

theorem intersectionOf_members {ms : List Ty} (known : WellFormed (.intersection ms)) :
    intersectionOf ms = .ok (.intersection ms) := by
  cases known with
  | intersection _ several distinct flat => exact intersectionOf_self several distinct flat

/-- How a factory treats groups of members. -/
structure Regroups (join : List Ty → Built) : Prop where
  /-- A group that is built stands for its members, also where the whole cannot be built. -/
  one : ∀ xs ys zs u, (∀ t ∈ xs ++ ys ++ zs, WellFormed t) → join ys = .ok u →
    join (xs ++ [u] ++ zs) = join (xs ++ ys ++ zs)
  all : ∀ parts us, (∀ t ∈ Grouping.typesAll parts, WellFormed t) →
    Grouping.buildAll join parts = .ok us → join us = join (Grouping.typesAll parts)
  any : ∀ g h : Grouping, ∀ u v, (∀ t ∈ g.types, WellFormed t) → h.types = g.types →
    g.build join = .ok u → h.build join = .ok v → u = v

theorem Splices.regroups {join : List Ty → Built} (splices : Splices join) : Regroups join := by
  constructor
  · intro xs ys zs u known built
    have known : ∀ t ∈ ys, WellFormed t := by
      intro t member
      apply known t
      simp [member]
    rw [List.append_assoc, List.append_assoc]
    exact splices.splice known built
  · intro parts us known built
    exact splices.buildAll_eq known built []
  · intro g h u v known same left right
    have flat := splices.build_eq known left
    rw [← same] at known flat
    exact Except.ok.inj (flat.symm.trans (splices.build_eq known right))

/-- Unions and intersections come to the same in any grouping, errors included, and are themselves again
when they are rebuilt from their members. The order of the members of a union changes neither whether it
can be built nor which members it has. -/
theorem unionOf_regroups :
    Regroups unionOf ∧ Regroups intersectionOf ∧
    (∀ ms, WellFormed (.union ms) → unionOf ms = .ok (.union ms)) ∧
    (∀ ms, WellFormed (.intersection ms) → intersectionOf ms = .ok (.intersection ms)) ∧
    ∀ ts us : List Ty, (∀ t ∈ ts, WellFormed t) → ts.Perm us →
      ((∃ u, unionOf ts = .ok u) ↔ ∃ v, unionOf us = .ok v) ∧
      ∀ u v, unionOf ts = .ok u → unionOf us = .ok v → v.unionMembers.Perm u.unionMembers := by
  refine ⟨unionOf_splices.regroups, intersectionOf_splices.regroups, fun ms => unionOf_members,
    fun ms => intersectionOf_members, ?_⟩
  intro ts us known order
  have knownUs : ∀ t ∈ us, WellFormed t := fun t member => known t (order.mem_iff.mpr member)
  constructor
  · constructor
    · rintro ⟨u, built⟩
      obtain ⟨v, built, -⟩ := unionOf_perm known order built
      exact ⟨v, built⟩
    · rintro ⟨v, built⟩
      obtain ⟨u, built, -⟩ := unionOf_perm knownUs order.symm built
      exact ⟨u, built⟩
  · intro u v left right
    obtain ⟨w, built, same⟩ := unionOf_perm known order left
    cases built.symm.trans right
    exact same

/-- A group that repeats a member of the whole, which cannot be built, and the same types turned around. -/
theorem unionOf_regroups_void :
    (unionOf [string, null] = .ok (.union [string, null])) ∧
    unionOf ([null] ++ [.union [string, null]] ++ [ofKind .void]) =
      unionOf ([null] ++ [string, null] ++ [ofKind .void]) ∧
    (Ty.union [null, string]).unionMembers.Perm [string, null] := by
  have known : ∀ t ∈ [null, string, null, ofKind .void], WellFormed t := by
    simp [null, string, ofKind_wellFormed]
  have pair : ∀ t ∈ [string, null], WellFormed t := by
    simp [null, string, ofKind_wellFormed]
  obtain ⟨regroups, -, -, -, order⟩ := unionOf_regroups
  have built : unionOf [string, null] = .ok (.union [string, null]) := rfl
  exact ⟨built, regroups.one [null] [string, null] [ofKind .void] _ known built,
    (order [string, null] [null, string] pair (.swap ..)).2 _ _ built rfl⟩

end TypeHints.Ty
