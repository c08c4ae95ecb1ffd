import Mathlib.Data.List.Forall2
import Mathlib.Data.List.Pairwise
import TypeHints.Proofs.Json.Paths
import TypeHints.Proofs.Json.Records

/-!
A record that was filled in from some members is filled in to the same draft from the same members
in another order, and from more members if it has no fields for them. The first section says that
whatever is written in a text can be passed over.
-/
namespace TypeHints.Json

variable {σ α β : Type}

/-! ### What is passed over -/

theorem skipItems?_eq_none {items : List Document} :
    skipItems? items = none ↔ ∀ d ∈ items, skipFault? d = none := by
  induction items with
  | nil => simp [skipItems?]
  | cons d items ih => rw [skipItems?, List.forall_mem_cons, ← ih]; cases skipFault? d <;> simp

theorem skipMembers?_eq_none {members : List (Label × Document)} :
    skipMembers? members = none ↔ ∀ m ∈ members, skipFault? m.2 = none := by
  induction members with
  | nil => simp [skipMembers?]
  | cons m members ih =>
    rw [skipMembers?, List.forall_mem_cons, ← ih]
    cases skipFault? m.2 <;> simp

theorem skipFault?_list {items : List Document} :
    skipFault? (.list items none) = none ↔ ∀ d ∈ items, skipFault? d = none := by
  rw [← skipItems?_eq_none, skipFault?]
  cases skipItems? items <;> simp

theorem skipFault?_object {members : List (Label × Document)} :
    skipFault? (.object members none) = none ↔ ∀ m ∈ members, skipFault? m.2 = none := by
  rw [← skipMembers?_eq_none, skipFault?]
  cases skipMembers? members <;> simp

theorem skipFault?_within (room : Nat) (d : Document) : skipFault? (d.within room) = skipFault? d := by
  induction room generalizing d with
  | zero => cases d <;> rfl
  | succ room ih =>
    cases d with
    | list items stop =>
      have each : skipItems? (items.map (Document.within room)) = skipItems? items := by
        induction items with
        | nil => rfl
        | cons d items same => rw [List.map_cons, skipItems?, skipItems?, ih, same]
      rw [Document.within, skipFault?, skipFault?, each]
    | object members stop =>
      have each : skipMembers? (members.map fun m => (m.1, m.2.within room)) = skipMembers? members := by
        induction members with
        | nil => rfl
        | cons m members same => rw [List.map_cons, skipMembers?, skipMembers?, ih, same]
      change skipFault? (.object (members.map fun m => (m.1, m.2.within room)) stop) = _
      rw [skipFault?, skipFault?, each]
    | _ => rfl

theorem memberFault?_within (room : Nat) (d : Document) :
    memberFault? (d.within room) = memberFault? d := by
  cases room <;> cases d <;> rfl

namespace Written

variable {d : Document}

/-- Numbers out of every range and half surrogate pairs are no faults of the object around them. -/
theorem memberFault?_eq_none (h : Written d) : memberFault? d = none := by
  obtain ⟨cs, text⟩ := h
  cases text with
  | @number n valid =>
    rw [Numeral.document]
    obtain ⟨i, scalar⟩ | ⟨x, scalar⟩ | scalar := n.scalar_cases <;> rw [scalar] <;> rfl
  | @text content valid =>
    cases label : labelOf content with
    | ok s => rfl
    | error fault =>
      have half := labelOf_error valid label
      simp only [surrogateFaults, List.mem_cons, List.not_mem_nil, or_false] at half
      rcases half with rfl | rfl <;> rfl
  | _ => rfl

theorem skipFault?_eq_none (h : Written d) : skipFault? d = none := by
  induction size : d.nesting using Nat.strongRecOn generalizing d with
  | _ n ih =>
    subst size
    obtain ⟨cs, text⟩ := h
    cases text with
    | @number n valid =>
      rw [Numeral.document]
      obtain ⟨i, scalar⟩ | ⟨x, scalar⟩ | scalar := n.scalar_cases <;> rw [scalar] <;> rfl
    | @text content valid => cases labelOf content <;> rfl
    | list given =>
      exact skipFault?_list.mpr fun d member =>
        ih _ (Document.nesting_item member) (given.written d member) rfl
    | object given =>
      exact skipFault?_object.mpr fun m member =>
        ih _ (Document.nesting_member member) (given.written m member).2 rfl
    | _ => rfl

theorem skipMember (h : Written d) (name : String) (room : Nat) :
    skipMember name (d.within room) = .ok () := by
  simp only [Json.skipMember, memberFault?_within, h.memberFault?_eq_none, skipFault?_within,
    h.skipFault?_eq_none]

end Written

/-! ### Members that change places -/

def Field.Independent (f g : Field σ) : Prop :=
  ∀ d e s t, (f.set d s >>= g.set e) = .ok t ↔ (g.set e s >>= f.set d) = .ok t

instance : Std.Symm (@Field.Independent σ) := ⟨fun _ _ h d e s t => (h e d s t).symm⟩

theorem field_independent {γ : Type} {name other : String} {decode : Decoder β} {decode' : Decoder γ}
    {store : β → σ → σ} {store' : γ → σ → σ}
    (commute : ∀ v w s, store' w (store v s) = store v (store' w s)) :
    (field name decode store).Independent (field other decode' store') := by
  intro d e s t
  simp only [field]
  cases decode d <;> cases decode' e <;> simp [bind, Except.bind, Except.map, commute]

namespace Record

variable {r : Record σ α}

theorem fill_seen {seen seen' : List String} (same : ∀ name, name ∈ seen ↔ name ∈ seen')
    (members : List (Label × Document)) (draft : σ) :
    r.fill seen members draft = r.fill seen' members draft := by
  induction members generalizing seen seen' draft with
  | nil => rfl
  | cons m members ih =>
    obtain ⟨label, d⟩ := m
    cases label with
    | error fault => rfl
    | ok name =>
      have further : ∀ other, other ∈ name :: seen ↔ other ∈ name :: seen' := fun other => by
        simp only [List.mem_cons, same]
      simp only [fill, same, ih same, ih further]

theorem Takes.swap (independent : r.fields.Pairwise Field.Independent) {seen seen₁ seen₂ : List String}
    {draft draft₁ draft₂ : σ} {m m' : Label × Document} (first : r.Takes seen draft m seen₁ draft₁)
    (second : r.Takes seen₁ draft₁ m' seen₂ draft₂) :
    ∃ seen₁' draft₁' seen₂', r.Takes seen draft m' seen₁' draft₁' ∧
      r.Takes seen₁' draft₁' m seen₂' draft₂ ∧ ∀ name, name ∈ seen₂ ↔ name ∈ seen₂' := by
  cases first with
  | @field f d _ known new shown set =>
    cases second with
    | @field g e _ known' new' shown' set' =>
      rw [List.mem_cons, not_or] at new'
      have other : f ≠ g := fun same => new'.1 (same ▸ rfl)
      have either := independent.forall known known' other
      obtain ⟨t, set', set⟩ := bind_eq_ok.mp ((either d e _ _).mp (bind_eq_ok.mpr ⟨_, set, set'⟩))
      refine ⟨_, t, _, .field known' new'.2 shown' set', .field known ?_ shown set, fun name => ?_⟩
      · rw [List.mem_cons, not_or]
        exact ⟨Ne.symm new'.1, new⟩
      · simp only [List.mem_cons, or_left_comm]
    | foreign unknown lenient passed =>
      exact ⟨_, _, _, .foreign unknown lenient passed, .field known new shown set, fun _ => Iff.rfl⟩
  | foreign unknown lenient passed =>
    cases second with
    | field known new shown set =>
      exact ⟨_, _, _, .field known new shown set, .foreign unknown lenient passed, fun _ => Iff.rfl⟩
    | foreign unknown' lenient' passed' =>
      exact ⟨_, _, _, .foreign unknown' lenient' passed', .foreign unknown lenient passed,
        fun _ => Iff.rfl⟩

theorem fill_perm (distinct : r.names.Nodup) (independent : r.fields.Pairwise Field.Independent)
    {members members' : List (Label × Document)} (order : members.Perm members') {seen : List String}
    {draft draft' : σ} (filled : r.fill seen members draft = .ok draft') :
    r.fill seen members' draft = .ok draft' := by
  induction order generalizing seen draft with
  | nil => exact filled
  | cons m _ ih =>
    obtain ⟨seen', s, step, filled⟩ := takes_of_fill filled
    exact fill_of_takes distinct step (ih filled)
  | swap m m' members =>
    -- The fields of the two members do not see each other, so either may be filled first.
    obtain ⟨_, _, first, filled⟩ := takes_of_fill filled
    obtain ⟨_, _, second, filled⟩ := takes_of_fill filled
    obtain ⟨_, _, _, first, second, same⟩ := first.swap independent second
    refine fill_of_takes distinct first (fill_of_takes distinct second ?_)
    rwa [← fill_seen same]
  | trans _ _ ih ih' => exact ih' (ih filled)

theorem fill_foreign (distinct : r.names.Nodup) (lenient : r.strict = false)
    {extra members : List (Label × Document)}
    (foreign : ∀ m ∈ extra, ∃ name, m.1 = .ok name ∧ name ∉ r.names ∧ skipMember name m.2 = .ok ())
    {seen : List String} {draft draft' : σ} (filled : r.fill seen members draft = .ok draft') :
    r.fill seen (extra ++ members) draft = .ok draft' := by
  induction extra with
  | nil => exact filled
  | cons m extra ih =>
    rw [List.forall_mem_cons] at foreign
    obtain ⟨⟨name, label, unknown, passed⟩, others⟩ := foreign
    obtain ⟨_, d⟩ := m
    cases label
    exact fill_of_takes distinct (.foreign unknown lenient passed) (ih others)

/-- The second member does for the record all that the first one does. -/
def Replaces (r : Record σ α) (m m' : Label × Document) : Prop :=
  ∀ seen draft seen' draft', r.Takes seen draft m seen' draft' → r.Takes seen draft m' seen' draft'

theorem fill_replaces (distinct : r.names.Nodup) {members members' : List (Label × Document)}
    (each : List.Forall₂ r.Replaces members members') {seen : List String} {draft draft' : σ}
    (filled : r.fill seen members draft = .ok draft') : r.fill seen members' draft = .ok draft' := by
  induction each generalizing seen draft with
  | nil => exact filled
  | cons replaces _ ih =>
    obtain ⟨_, _, step, filled⟩ := takes_of_fill filled
    exact fill_of_takes distinct (replaces _ _ _ _ step) (ih filled)

end Record

end TypeHints.Json
