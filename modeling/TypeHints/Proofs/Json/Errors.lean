import TypeHints.Proofs.Json.Paths
import TypeHints.Proofs.Json.Reading
import TypeHints.Proofs.Json.Records

/-!
A decoder is precise if each of its errors points at a value that it fits. One lemma per way to make
a decoder: it is precise if those that it is made of are.
-/
namespace TypeHints.Json

variable {σ α β : Type}

def Precise (decode : Decoder α) : Prop :=
  ∀ d e, Proper d → decode d = .error e → Points d e

/-! ### Plain values and lists -/

theorem mismatch_points {expected : String} {d : Document} {e : DecodeError}
    (h : (mismatch expected d : Except DecodeError α) = .error e) : Points d e := by
  unfold mismatch at h
  split at h
  · cases h
    exact .root trivial
  next whole =>
    cases h
    exact .root ⟨rfl, whole⟩

theorem precise_text : Precise decodeText := by
  intro d e _ h
  unfold decodeText decodeTextAs at h
  split at h
  · cases h
  · exact mismatch_points h

theorem precise_bool : Precise decodeBool := by
  intro d e _ h
  unfold decodeBool at h
  split at h
  · cases h
  · exact mismatch_points h

/-- Marking what is nested too deep, as reading does, hides no value that an error points at. -/
theorem Precise.decodeString {decode : Decoder α} (h : Precise decode) {text : String}
    {d : Document} (valid : IsJson text d) {e : DecodeError}
    (failed : decodeString decode text = .error e) : Points d e := by
  rw [Json.decodeString, ofString_of_isJson valid] at failed
  exact (h _ e (valid.proper.within maxNesting) failed).of_within

theorem Precise.map {decode : Decoder α} (h : Precise decode) (f : α → β) :
    Precise fun d => (decode d).map f :=
  fun d e proper failed => h d e proper (map_eq_error.mp failed)

theorem Precise.option {decode : Decoder α} (h : Precise decode) : Precise (decodeOption decode) := by
  intro d e proper failed
  unfold decodeOption at failed
  split at failed
  · cases failed
  · cases failed
    exact .root trivial
  · exact h d e proper (map_eq_error.mp failed)

theorem under_eq_error {segment : Segment} {x : Except DecodeError α} {e : DecodeError} :
    under segment x = .error e ↔ ∃ e', x = .error e' ∧ e = ⟨segment :: e'.path, e'.complaint⟩ := by
  cases x <;> simp [under, eq_comm]

theorem decodeItems_error {decode : Decoder α} {n : Nat} {items : List Document} {e : DecodeError}
    (h : decodeItems decode n items = .error e) :
    ∃ i item e', items[i]? = some item ∧ decode item = .error e' ∧
      e = ⟨.index (n + i) :: e'.path, e'.complaint⟩ := by
  induction items generalizing n with
  | nil => cases h
  | cons d items ih =>
    rcases bind_eq_error.mp h with failed | ⟨v, -, h⟩
    · obtain ⟨e', cause, rfl⟩ := under_eq_error.mp failed
      exact ⟨0, d, e', rfl, cause, rfl⟩
    · rcases bind_eq_error.mp h with failed | ⟨vs, -, h⟩
      · obtain ⟨i, item, e', given, cause, rfl⟩ := ih failed
        exact ⟨i + 1, item, e', given, cause, by rw [Nat.add_right_comm, Nat.add_assoc]⟩
      · cases h

theorem Precise.list {decode : Decoder α} (h : Precise decode) : Precise (decodeList decode) := by
  intro d e proper failed
  unfold decodeList at failed
  split at failed
  next items stop =>
    rcases bind_eq_error.mp failed with failed | ⟨vs, -, failed⟩
    · obtain ⟨i, item, e', given, cause, rfl⟩ := decodeItems_error failed
      rw [Nat.zero_add]
      exact .under_index given (h item e' (proper.index given) cause)
    · cases stop <;> cases failed
      exact .root trivial
  · cases failed
    exact .root trivial
  · exact mismatch_points failed

/-! ### Members of objects -/

section Members

variable {members : List (Label × Document)} {stop : Option Fault}

theorem decodeMember_points {decode : Decoder α} (h : Precise decode)
    (proper : Proper (.object members stop)) {name : String} {d : Document}
    (given : (.ok name, d) ∈ members) {e : DecodeError}
    (failed : decodeMember name decode d = .error e) : Points (.object members stop) e := by
  unfold decodeMember at failed
  split at failed
  · cases failed
    exact .root trivial
  · obtain ⟨e', cause, rfl⟩ := under_eq_error.mp failed
    exact .under_key given (h d e' (proper.key given) cause)

theorem skipMember_points {name : String} {d : Document} (given : (.ok name, d) ∈ members)
    {e : DecodeError} (failed : skipMember name d = .error e) : Points (.object members stop) e := by
  unfold skipMember at failed
  split at failed
  · cases failed
    exact .root trivial
  · split at failed
    · cases failed
      exact .under_key given (e := ⟨[], _⟩) (.root trivial)
    · cases failed

theorem nameFault_points (proper : Proper (.object members stop)) {fault : Fault} {d : Document}
    (given : (.error fault, d) ∈ members) :
    Points (.object members stop) ⟨[.unknown], .malformed fault⟩ := by
  have undecodable : .error fault ∈ members.map Prod.fst := List.mem_map_of_mem given
  exact .name (.here _) rfl undecodable ((proper _ _ _ (.here _)).2 fault undecodable)

theorem closedObject_proper (proper : Proper (.object members stop)) : closedObject stop = .ok () := by
  rw [(proper _ _ _ (.here _)).1]
  rfl

end Members

theorem Precise.mapping {decode : Decoder α} (h : Precise decode) : Precise (decodeMap decode) := by
  intro d e proper failed
  unfold decodeMap at failed
  split at failed
  next members stop =>
    change decodeMap decode (.object members stop) = _ at failed
    rw [decodeMap_object, closedObject_proper proper] at failed
    rcases bind_eq_error.mp failed with failed | ⟨map, -, failed⟩
    · obtain ⟨⟨label, d⟩, given, map, failed⟩ := foldlM_eq_error failed
      cases label with
      | error fault =>
        cases failed
        exact nameFault_points proper given
      | ok name => exact decodeMember_points h proper given (map_eq_error.mp failed)
    · cases failed
  · cases failed
    exact .root trivial
  · exact mismatch_points failed

/-! ### Records -/

/-- A record can lack no field but this one, and it lacks it until the field is set. -/
structure Record.Needs (r : Record σ α) (name : String) (given : σ → Prop) : Prop where
  known : name ∈ r.names
  set : ∀ f ∈ r.fields, f.name = name → ∀ d s s', f.set d s = .ok s' → given s'
  keep : ∀ f ∈ r.fields, ∀ d s s', given s → f.set d s = .ok s' → given s'
  lacking : ∀ s missing, r.build s = .error missing → missing = name ∧ ¬ given s

def UnknownMember (d : Document) (e : DecodeError) : Prop :=
  ∃ members stop name child known, d = .object members stop ∧ (.ok name, child) ∈ members ∧
    e = ⟨[.key name], .unknownField name known⟩

theorem UnknownMember.of_within {room : Nat} {d : Document} {e : DecodeError}
    (h : UnknownMember (d.within room) e) : UnknownMember d e := by
  obtain ⟨members, stop, name, child, known, isObject, member, rfl⟩ := h
  obtain ⟨given, _, rfl, rfl⟩ := Document.within_eq_object isObject
  obtain ⟨⟨label, child⟩, inside, same⟩ := List.mem_map.mp member
  cases same
  exact ⟨given, stop, name, child, known, rfl, inside, rfl⟩

namespace Record

variable {r : Record σ α}

theorem fill_given {name : String} {given : σ → Prop} (needs : r.Needs name given)
    {seen : List String} {members : List (Label × Document)} {draft draft' : σ}
    (filled : r.fill seen members draft = .ok draft')
    (somewhere : given draft ∨ .ok name ∈ members.map Prod.fst) : given draft' := by
  induction members generalizing seen draft with
  | nil =>
    cases filled
    simpa using somewhere
  | cons m members ih =>
    obtain ⟨_, _, step, filled⟩ := takes_of_fill filled
    rw [List.map_cons, List.mem_cons] at somewhere
    refine ih filled ?_
    cases step with
    | @field f d _ known _ _ set =>
      rcases somewhere with start | here | later
      · exact .inl (needs.keep f known d _ _ start set)
      · cases here
        exact .inl (needs.set f known rfl d _ _ set)
      · exact .inr later
    | foreign unknown =>
      rcases somewhere with start | here | later
      · exact .inl start
      · cases here
        exact absurd needs.known unknown
      · exact .inr later

theorem fill_points (precise : ∀ f ∈ r.fields, ∀ draft, Precise (f.set · draft))
    (before : List (Label × Document)) {members : List (Label × Document)} {stop : Option Fault}
    (proper : Proper (.object (before ++ members) stop)) {seen : List String} {draft : σ}
    {e : DecodeError} (failed : r.fill seen members draft = .error e)
    (passed : ∀ name ∈ seen, .ok name ∈ before.map Prod.fst) :
    Points (.object (before ++ members) stop) e ∨
      (r.strict = true ∧ UnknownMember (.object (before ++ members) stop) e) := by
  -- The members before are those already filled in: a name that was seen is found among them.
  induction members generalizing before seen draft with
  | nil => cases failed
  | cons m members ih =>
    obtain ⟨label, d⟩ := m
    have here : (label, d) ∈ before ++ (label, d) :: members := by simp
    have step : before ++ (label, d) :: members = (before ++ [(label, d)]) ++ members := by simp
    cases label with
    | error fault =>
      cases failed
      exact .inl (nameFault_points proper here)
    | ok name =>
      have onward {seen : List String}
          (passed : ∀ other ∈ seen, other = name ∨ .ok other ∈ before.map Prod.fst)
          {draft : σ} (failed : r.fill seen members draft = .error e) :
          Points (.object (before ++ (.ok name, d) :: members) stop) e ∨
            (r.strict = true ∧ UnknownMember (.object (before ++ (.ok name, d) :: members) stop) e) := by
        rw [step] at proper ⊢
        refine ih _ proper failed fun other member => ?_
        rcases passed other member with rfl | earlier
        · simp
        · simp [earlier]
      rw [fill] at failed
      split at failed
      next f found =>
        split at failed
        next again =>
          cases failed
          refine .inl (.root ⟨_, rfl, ?_⟩)
          have first := List.singleton_sublist.mpr (passed name again)
          rw [List.map_append]
          exact first.append (List.singleton_sublist.mpr List.mem_cons_self)
        next =>
          rcases bind_eq_error.mp failed with failed | ⟨s, -, failed⟩
          · have inside := List.mem_of_find?_eq_some found
            exact .inl (decodeMember_points (precise f inside draft) proper here failed)
          · refine onward (fun other member => ?_) failed
            exact (List.mem_cons.mp member).imp_right (passed other)
      next =>
        split at failed
        next strict =>
          cases failed
          exact .inr ⟨strict, _, _, name, d, _, rfl, here, rfl⟩
        next =>
          rcases bind_eq_error.mp failed with failed | ⟨s, -, failed⟩
          · exact .inl (skipMember_points here failed)
          · exact onward (fun other member => .inr (passed other member)) failed

theorem fillItems_error {n : Nat} {fields : List (Field σ)} {items : List Document} {draft : σ}
    {e : DecodeError} (h : fillItems n fields items draft = .error e) :
    ∃ i item e', items[i]? = some item ∧ (∃ f ∈ fields, ∃ draft, f.set item draft = .error e') ∧
      e = ⟨.index (n + i) :: e'.path, e'.complaint⟩ := by
  induction fields generalizing n items draft with
  | nil => cases items <;> cases h
  | cons f fields ih =>
    cases items with
    | nil => cases h
    | cons d items =>
      rcases bind_eq_error.mp h with failed | ⟨s, -, failed⟩
      · obtain ⟨e', cause, rfl⟩ := under_eq_error.mp failed
        exact ⟨0, d, e', rfl, ⟨f, List.mem_cons_self, draft, cause⟩, rfl⟩
      · obtain ⟨i, item, e', given, ⟨g, inside, cause⟩, rfl⟩ := ih failed
        exact ⟨i + 1, item, e', given, ⟨g, List.mem_cons_of_mem _ inside, cause⟩,
          by rw [Nat.add_right_comm, Nat.add_assoc]⟩

theorem closedItems_points {items : List Document} {stop : Option Fault} {e : DecodeError}
    (failed : r.closedItems items stop = .error e) : Points (.list items stop) e := by
  unfold closedItems at failed
  split at failed
  · cases failed
    exact .root trivial
  · split at failed
    · cases failed
    · split at failed <;> cases failed <;> exact .root trivial

/-- An error of a record points at a value that it fits, unless the record is strict and met a member that
it does not know. -/
theorem decode_points {name : String} {given : σ → Prop} (needs : r.Needs name given)
    (precise : ∀ f ∈ r.fields, ∀ draft, Precise (f.set · draft)) {d : Document} {e : DecodeError}
    (proper : Proper d) (failed : r.decode d = .error e) :
    Points d e ∨ (r.strict = true ∧ UnknownMember d e) := by
  unfold decode at failed
  split at failed
  next members stop =>
    rw [closedObject_proper proper] at failed
    rcases bind_eq_error.mp failed with failed | ⟨s, filled, failed⟩
    · exact fill_points precise [] proper failed nofun
    · cases built : r.build s with
      | ok v =>
        simp only [built, bind, Except.bind] at failed
        cases failed
      | error missing =>
        simp only [built, bind, Except.bind] at failed
        cases failed
        obtain ⟨rfl, absent⟩ := needs.lacking s _ built
        exact .inl (.root ⟨_, rfl, fun somewhere => absent (fill_given needs filled (.inr somewhere))⟩)
  next items stop =>
    change r.decode (.list items stop) = _ at failed
    rw [decode_list] at failed
    refine .inl ?_
    rcases bind_eq_error.mp failed with failed | ⟨s, -, failed⟩
    · obtain ⟨i, item, e', inside, ⟨f, known, draft, cause⟩, rfl⟩ := fillItems_error failed
      rw [Nat.zero_add]
      exact .under_index inside (precise f known draft item e' (proper.index inside) cause)
    · rcases bind_eq_error.mp failed with failed | ⟨_, -, failed⟩
      · split at failed
        · cases stop <;> cases failed
          exact .root trivial
        · cases failed
      · split at failed
        · rcases bind_eq_error.mp failed with failed | ⟨_, -, failed⟩
          · exact closedItems_points failed
          · cases failed
        · cases failed
          exact .root ⟨items, stop, rfl⟩
  · cases failed
    exact .inl (.root trivial)
  · exact .inl (mismatch_points failed)

theorem precise_decode {name : String} {given : σ → Prop} (needs : r.Needs name given)
    (precise : ∀ f ∈ r.fields, ∀ draft, Precise (f.set · draft)) (lenient : r.strict = false) :
    Precise r.decode := by
  intro d e proper failed
  rcases decode_points needs precise proper failed with points | ⟨strict, -⟩
  · exact points
  · rw [lenient] at strict
    cases strict

end Record

/-! ### Named cases -/

/-- A case with a value that names no value of its own, and is precise about the one it is given. -/
structure PrecisePayload (payload : Payload α) : Prop where
  bare : ∀ e, payload none = .error e → e = ⟨[], .invalidType "unit variant" "newtype variant"⟩
  given : Precise fun d => payload (some d)

theorem precisePayload_unit (value : α) : PrecisePayload (unit value) where
  bare := nofun
  given := by
    intro d e _ failed
    change unit value (some d) = .error e at failed
    unfold unit at failed
    split at failed
    · cases failed
    · cases failed
    next same =>
      cases same
      exact mismatch_points failed

theorem Precise.newtype {decode : Decoder α} (h : Precise decode) : PrecisePayload (newtype decode) where
  bare := by
    intro e failed
    cases failed
    rfl
  given := h

theorem precise_enumeration {cases : List (String × Payload α)}
    (precise : ∀ c ∈ cases, PrecisePayload c.2) : Precise (enumeration cases) := by
  intro d e proper failed
  unfold enumeration at failed
  split at failed
  next name =>
    split at failed
    next payload found =>
      obtain ⟨e', cause, rfl⟩ := under_eq_error.mp failed
      cases (precise _ (List.mem_of_find?_eq_some found)).bare e' cause
      exact @Points.bareCase _ [] name (.here _)
    next =>
      cases failed
      exact .root (.inl rfl)
  next =>
    cases failed
    exact .root trivial
  next =>
    cases failed
    exact .root trivial
  next name d rest stop =>
    split at failed
    next payload found =>
      have payload := (precise _ (List.mem_of_find?_eq_some found)).given
      rcases bind_eq_error.mp failed with failed | ⟨v, -, failed⟩
      · exact decodeMember_points payload proper List.mem_cons_self failed
      · split at failed
        · cases failed
          exact .root trivial
        · split at failed <;> cases failed <;> exact .root trivial
    next =>
      cases failed
      exact .root (.inr ⟨_, rfl⟩)
  all_goals
    cases failed
    exact .root trivial

end TypeHints.Json
