import TypeHints.Json.Decode
import TypeHints.Proofs.Except
import TypeHints.Proofs.Json.Nesting
import TypeHints.Proofs.Keyed

/-!
One lemma per shape of data: lists, maps, records and named cases are decoded to what they were
encoded from if their parts are. The second half says which part of a document each part of a
decoded value comes from.
-/
namespace TypeHints.Json

variable {σ α β : Type}

/-! ### Lists and options -/

theorem under_eq_ok {segment : Segment} {x : Except DecodeError α} {v : α} :
    under segment x = .ok v ↔ x = .ok v := by
  cases x <;> simp [under]

theorem decodeItems_map {decode : Decoder α} {encode : α → Document} {vs : List α}
    (each : ∀ v ∈ vs, decode (encode v) = .ok v) (n : Nat) :
    decodeItems decode n (vs.map encode) = .ok vs := by
  induction vs generalizing n with
  | nil => rfl
  | cons v vs ih =>
    have rest := ih (fun w member => each w (List.mem_cons_of_mem _ member)) (n + 1)
    simp only [List.map_cons, decodeItems, each v List.mem_cons_self, rest, under]
    rfl

theorem decodeList_ofList {decode : Decoder α} {encode : α → Document} {vs : List α}
    (each : ∀ v ∈ vs, decode (encode v) = .ok v) :
    decodeList decode (.ofList (vs.map encode)) = .ok vs := by
  simp only [Document.ofList, decodeList, decodeItems_map each]
  rfl

theorem decodeList_of_nesting {decode : Decoder α} {encode : α → Document} {n : Nat}
    (restores : ∀ v, (encode v).nesting ≤ n → decode (encode v) = .ok v) {vs : List α}
    (shallow : (Document.ofList (vs.map encode)).nesting ≤ n) :
    decodeList decode (.ofList (vs.map encode)) = .ok vs := by
  obtain ⟨-, each⟩ := Document.nesting_ofList_le.mp shallow
  exact decodeList_ofList fun v member =>
    restores v (Nat.le_of_lt (each _ (List.mem_map_of_mem member)))

theorem decodeOption_text? (s : Option String) :
    decodeOption decodeText (.ofText? s) = .ok s := by
  cases s <;> rfl

theorem decodeOption_object (decode : Decoder α) (members : List (Label × Document))
    (stop : Option Fault) :
    decodeOption decode (.object members stop) = (decode (.object members stop)).map some := rfl

/-! ### Maps -/

def mapMember (decode : Decoder α) (map : Keyed String α) : Label × Document →
    Except DecodeError (Keyed String α)
  | (.error fault, _) => nameFault fault
  | (.ok name, d) => (decodeMember name decode d).map (map.put name ·)

theorem decodeMap_object (decode : Decoder α) (members : List (Label × Document))
    (stop : Option Fault) :
    decodeMap decode (.object members stop) =
      (members.foldlM (mapMember decode) Keyed.empty >>= fun map =>
        closedObject stop >>= fun _ => .ok map) := by
  change (members.foldlM _ Keyed.empty >>= _) = _
  congr 2
  funext map m
  obtain ⟨label, d⟩ := m
  cases label with
  | error fault => rfl
  | ok name =>
    simp only [mapMember]
    cases decodeMember name decode d <;> rfl

theorem decodeMember_ok {decode : Decoder α} {d : Document} {v : α} (shown : memberFault? d = none)
    (h : decode d = .ok v) (name : String) : decodeMember name decode d = .ok v := by
  simp only [decodeMember, shown, h, under]

theorem foldlM_mapMember {decode : Decoder α} {encode : α → Document}
    (restores : ∀ v, decode (encode v) = .ok v) (shown : ∀ v, memberFault? (encode v) = none)
    {es : List (String × α)} {map m : Keyed String α} (whole : m.entries = map.entries ++ es) :
    (es.map fun e => ((.ok e.1 : Label), encode e.2)).foldlM (mapMember decode) map = .ok m := by
  induction es generalizing map with
  | nil =>
    obtain ⟨_, _⟩ := m
    obtain ⟨_, _⟩ := map
    simp at whole
    subst whole
    rfl
  | cons e es ih =>
    have new : e.1 ∉ map.entries.map Prod.fst := by
      have distinct := m.distinct
      rw [whole, List.map_append, List.nodup_append] at distinct
      intro member
      exact distinct.2.2 _ member e.1 (by simp) rfl
    have put : (map.put e.1 e.2).entries = map.entries ++ [e] := Keyed.putEntry_new new
    rw [List.map_cons, List.foldlM_cons]
    simp only [mapMember, decodeMember_ok (shown e.2) (restores e.2) e.1]
    exact ih (by rw [put, whole, List.append_assoc]; rfl)

theorem decodeMap_entries {decode : Decoder α} {encode : α → Document}
    (restores : ∀ v, decode (encode v) = .ok v) (shown : ∀ v, memberFault? (encode v) = none)
    (m : Keyed String α) :
    decodeMap decode (.ofMembers (m.entries.map fun e => (e.1, encode e.2))) = .ok m := by
  have whole : m.entries = (Keyed.empty : Keyed String α).entries ++ m.entries := rfl
  have members := foldlM_mapMember restores shown whole
  rw [Document.ofMembers, decodeMap_object, List.map_map]
  simp only [Function.comp_def, members]
  rfl

/-! ### Records -/

/-- Setting the fields from these documents, one after the other, leads from one draft to another. -/
inductive Sets : List (Field σ) → List Document → σ → σ → Prop
  | nil {draft : σ} : Sets [] [] draft draft
  | cons {f : Field σ} {fields : List (Field σ)} {d : Document} {ds : List Document}
      {draft draft' draft'' : σ} (shown : memberFault? d = none) (set : f.set d draft = .ok draft')
      (others : Sets fields ds draft' draft'') : Sets (f :: fields) (d :: ds) draft draft''

theorem Sets.store {name : String} {decode : Decoder β} {write : β → σ → σ} {d : Document} {v : β}
    {fields : List (Field σ)} {ds : List Document} {draft draft' : σ} (decoded : decode d = .ok v)
    (shown : memberFault? d = none) (others : Sets fields ds (write v draft) draft') :
    Sets (field name decode write :: fields) (d :: ds) draft draft' :=
  .cons shown (by simp only [field, decoded]; rfl) others

namespace Record

theorem find?_field {r : Record σ α} (distinct : r.names.Nodup) {f : Field σ} (given : f ∈ r.fields) :
    r.fields.find? (·.name = f.name) = some f := by
  rw [List.find?_eq_some_iff_append]
  obtain ⟨before, after, whole⟩ := List.append_of_mem given
  refine ⟨by simp, before, after, whole, fun g member => ?_⟩
  rw [names, whole, List.map_append, List.nodup_append] at distinct
  simpa using distinct.2.2 g.name (List.mem_map_of_mem member) f.name (by simp)

inductive Takes (r : Record σ α) (seen : List String) (draft : σ) :
    Label × Document → List String → σ → Prop
  | field {f : Field σ} {d : Document} {draft' : σ} (known : f ∈ r.fields) (new : f.name ∉ seen)
      (shown : memberFault? d = none) (set : f.set d draft = .ok draft') :
      Takes r seen draft (.ok f.name, d) (f.name :: seen) draft'
  | foreign {name : String} {d : Document} (unknown : name ∉ r.names) (lenient : r.strict = false)
      (passed : skipMember name d = .ok ()) : Takes r seen draft (.ok name, d) seen draft

theorem find?_eq_none {r : Record σ α} {name : String} :
    r.fields.find? (·.name = name) = none ↔ name ∉ r.names := by
  simp [names]

theorem takes_of_fill {r : Record σ α} {seen : List String} {m : Label × Document}
    {members : List (Label × Document)} {draft draft'' : σ}
    (filled : r.fill seen (m :: members) draft = .ok draft'') :
    ∃ seen' draft', r.Takes seen draft m seen' draft' ∧
      r.fill seen' members draft' = .ok draft'' := by
  obtain ⟨label, d⟩ := m
  cases label with
  | error fault => cases filled
  | ok name =>
    rw [fill] at filled
    split at filled
    next f found =>
      have known := List.mem_of_find?_eq_some found
      obtain rfl : f.name = name := by simpa using List.find?_some found
      split at filled
      · cases filled
      next new =>
        obtain ⟨s, member, filled⟩ := bind_eq_ok.mp filled
        rw [decodeMember] at member
        split at member
        · cases member
        next shown => exact ⟨_, s, .field known new shown (under_eq_ok.mp member), filled⟩
    next unknown =>
      split at filled
      · cases filled
      next lenient =>
        obtain ⟨_, passed, filled⟩ := bind_eq_ok.mp filled
        exact ⟨seen, draft, .foreign (find?_eq_none.mp unknown) (by simpa using lenient) passed, filled⟩

theorem fill_of_takes {r : Record σ α} (distinct : r.names.Nodup) {seen seen' : List String}
    {m : Label × Document} {members : List (Label × Document)} {draft draft' draft'' : σ}
    (step : r.Takes seen draft m seen' draft') (filled : r.fill seen' members draft' = .ok draft'') :
    r.fill seen (m :: members) draft = .ok draft'' := by
  cases step with
  | field known new shown set =>
    rw [fill]
    simp only [find?_field distinct known, new, if_false]
    exact bind_eq_ok.mpr ⟨_, decodeMember_ok shown set _, filled⟩
  | foreign unknown lenient passed =>
    rw [fill]
    simp only [find?_eq_none.mpr unknown, lenient, Bool.false_eq_true, if_false]
    exact bind_eq_ok.mpr ⟨_, passed, filled⟩

theorem fill_sets {r : Record σ α} (distinct : r.names.Nodup) {fields : List (Field σ)}
    {ds : List Document} {draft draft' : σ} (sets : Sets fields ds draft draft')
    (given : ∀ f ∈ fields, f ∈ r.fields) (nodup : (fields.map (·.name)).Nodup) {seen : List String}
    (new : ∀ f ∈ fields, f.name ∉ seen) :
    r.fill seen ((fields.zip ds).map fun p => (.ok p.1.name, p.2)) draft = .ok draft' := by
  induction sets generalizing seen with
  | nil => rfl
  | @cons f fields d ds draft draft₁ draft₂ shown set others ih =>
    rw [List.forall_mem_cons] at given new
    rw [List.map_cons, List.nodup_cons] at nodup
    rw [List.zip_cons_cons, List.map_cons]
    refine fill_of_takes distinct (.field given.1 new.1 shown set) (ih given.2 nodup.2 fun g other => ?_)
    rw [List.mem_cons, not_or]
    exact ⟨fun same => nodup.1 (same ▸ List.mem_map_of_mem other), new.2 g other⟩

theorem decode_sets {r : Record σ α} (distinct : r.names.Nodup) {ds : List Document} {draft : σ}
    (sets : Sets r.fields ds r.draft draft) {v : α} (built : r.build draft = .ok v) :
    r.decode (.ofMembers (r.names.zip ds)) = .ok v := by
  have filled : r.fill [] _ r.draft = .ok draft :=
    fill_sets distinct sets (fun _ given => given) distinct nofun
  have members : (r.names.zip ds).map (fun p => ((.ok p.1 : Label), p.2)) =
      (r.fields.zip ds).map fun p => (.ok p.1.name, p.2) := by
    rw [names, List.zip_map_left, List.map_map]
    rfl
  simp only [decode, Document.ofMembers, members, filled, closedObject, bind, Except.bind, built]
  rfl

end Record

/-! ### Named cases, encoded -/

theorem enumeration_single_eq_ok {cases : List (String × Payload α)} {name : String} {d : Document}
    {v : α} :
    enumeration cases (.object [(.ok name, d)] none) = .ok v ↔
      ∃ c, cases.find? (·.1 = name) = some c ∧
        decodeMember name (fun d => c.2 (some d)) d = .ok v := by
  simp only [enumeration]
  cases cases.find? (·.1 = name) with
  | none => simp [fail]
  | some c =>
    simp only [Option.some.injEq, exists_eq_left']
    cases decodeMember name (fun d => c.2 (some d)) d <;> simp [bind, Except.bind, pure, Except.pure]

theorem enumeration_single {cases : List (String × Payload α)} {name : String} {payload : Payload α}
    {d : Document} {v : α} (found : cases.find? (·.1 = name) = some (name, payload))
    (shown : memberFault? d = none) (decoded : payload (some d) = .ok v) :
    enumeration cases (.ofMembers [(name, d)]) = .ok v :=
  enumeration_single_eq_ok.mpr ⟨_, found, decodeMember_ok shown decoded name⟩

/-! ### Where a decoded value comes from -/

theorem mismatch_ne_ok {expected : String} {d : Document} {v : α} : mismatch expected d ≠ .ok v := by
  unfold mismatch
  split <;> nofun

theorem decodeMember_eq_ok {name : String} {decode : Decoder α} {d : Document} {v : α}
    (h : decodeMember name decode d = .ok v) : decode d = .ok v := by
  unfold decodeMember at h
  split at h
  · cases h
  · exact under_eq_ok.mp h

theorem decodeOption_eq_some {decode : Decoder α} {d : Document} {v : α}
    (h : decodeOption decode d = .ok (some v)) : decode d = .ok v := by
  unfold decodeOption at h
  split at h
  · cases h
  · cases h
  · obtain ⟨w, decoded, same⟩ := map_eq_ok.mp h
    cases same
    exact decoded

theorem decodeItems_origin {decode : Decoder α} {n : Nat} {items : List Document} {vs : List α}
    (h : decodeItems decode n items = .ok vs) : ∀ v ∈ vs, ∃ d ∈ items, decode d = .ok v := by
  induction items generalizing n vs with
  | nil => cases h; nofun
  | cons d items ih =>
    obtain ⟨v, decoded, h⟩ := bind_eq_ok.mp h
    obtain ⟨ws, others, h⟩ := bind_eq_ok.mp h
    cases h
    rw [List.forall_mem_cons]
    refine ⟨⟨d, List.mem_cons_self, under_eq_ok.mp decoded⟩, fun w member => ?_⟩
    obtain ⟨e, given, same⟩ := ih others w member
    exact ⟨e, List.mem_cons_of_mem _ given, same⟩

theorem decodeList_origin {decode : Decoder α} {d : Document} {vs : List α}
    (h : decodeList decode d = .ok vs) :
    0 < d.nesting ∧ ∀ v ∈ vs, ∃ item, item.nesting < d.nesting ∧ decode item = .ok v := by
  unfold decodeList at h
  split at h
  · obtain ⟨ws, decoded, h⟩ := bind_eq_ok.mp h
    obtain ⟨_, -, h⟩ := bind_eq_ok.mp h
    cases h
    refine ⟨Nat.succ_pos _, fun v member => ?_⟩
    obtain ⟨item, given, same⟩ := decodeItems_origin decoded v member
    exact ⟨item, Document.nesting_item given, same⟩
  · cases h
  · exact absurd h mismatch_ne_ok

/-- A decoded list is written back no deeper than it was, but for the least that its items take. -/
theorem nesting_decodedList_le {decode : Decoder α} {encode : α → Document} {least : Nat}
    (each : ∀ d v, decode d = .ok v → (encode v).nesting ≤ max least d.nesting) {d : Document}
    {vs : List α} (h : decodeList decode d = .ok vs) :
    (Document.ofList (vs.map encode)).nesting ≤ max (least + 1) d.nesting := by
  obtain ⟨isList, origin⟩ := decodeList_origin h
  refine Document.nesting_ofList_le.mpr ⟨by omega, List.forall_mem_map.mpr fun v member => ?_⟩
  obtain ⟨item, inner, decoded⟩ := origin v member
  have := each item v decoded
  omega

/-- Setting the field from a document that satisfies the condition preserves the property of the draft. -/
def Field.Keeps (f : Field σ) (condition : Document → Prop) (P : σ → Prop) : Prop :=
  ∀ d s s', condition d → P s → f.set d s = .ok s' → P s'

theorem field_keeps {name : String} {decode : Decoder β} {store : β → σ → σ}
    {condition : Document → Prop} {P : σ → Prop}
    (keep : ∀ d s v, condition d → P s → decode d = .ok v → P (store v s)) :
    (field name decode store).Keeps condition P := by
  intro d s s' given start set
  obtain ⟨v, decoded, rfl⟩ := map_eq_ok.mp set
  exact keep d s v given start decoded

namespace Record

variable {r : Record σ α} {condition : Document → Prop} {P : σ → Prop}

theorem fill_holds (keeps : ∀ f ∈ r.fields, f.Keeps condition P)
    {members : List (Label × Document)} (each : ∀ m ∈ members, condition m.2) {seen : List String}
    {draft draft' : σ} (start : P draft) (h : r.fill seen members draft = .ok draft') :
    P draft' := by
  induction members generalizing seen draft with
  | nil => cases h; exact start
  | cons m members ih =>
    rw [List.forall_mem_cons] at each
    obtain ⟨_, _, step, h⟩ := takes_of_fill h
    refine ih each.2 ?_ h
    cases step with
    | field known _ _ set => exact keeps _ known _ _ _ each.1 start set
    | foreign => exact start

theorem fillItems_holds {fields : List (Field σ)} (keeps : ∀ f ∈ fields, f.Keeps condition P)
    {items : List Document} (each : ∀ d ∈ items, condition d) {n : Nat} {draft draft' : σ}
    (start : P draft) (h : fillItems n fields items draft = .ok draft') : P draft' := by
  induction fields generalizing n items draft with
  | nil => cases items <;> cases h <;> exact start
  | cons f fields ih =>
    rw [List.forall_mem_cons] at keeps
    cases items with
    | nil => cases h; exact start
    | cons d items =>
      rw [List.forall_mem_cons] at each
      obtain ⟨s, set, h⟩ := bind_eq_ok.mp h
      exact ih keeps.2 each.2 (keeps.1 d _ _ each.1 start (under_eq_ok.mp set)) h

theorem decode_list (r : Record σ α) (items : List Document) (stop : Option Fault) :
    r.decode (.list items stop) =
      (fillItems 0 r.fields items r.draft >>= fun draft =>
        (if items.length < r.fields.length then closed stop else .ok ()) >>= fun _ =>
          match r.build draft with
          | .ok value => r.closedItems items stop >>= fun _ => .ok value
          | .error lacking =>
            fail (.invalidLength (r.names.findIdx (· = lacking)) r.sizeText)) := by
  change (fillItems 0 r.fields items r.draft >>= _) = _
  congr 1
  funext draft
  dsimp only
  split <;> rfl

theorem nesting_pos {d : Document} {v : α} (h : r.decode d = .ok v) : 0 < d.nesting := by
  match d with
  | .object _ _ | .list _ _ => exact Nat.succ_pos _
  | .null | .bool _ | .integer _ | .float _ | .text _ | .broken _ _ _ | .deep _ => cases h

theorem decode_holds {d : Document} {v : α} (h : r.decode d = .ok v) (start : P r.draft)
    (keeps : ∀ f ∈ r.fields, f.Keeps (·.nesting < d.nesting) P) : ∃ s, P s ∧ r.build s = .ok v := by
  match d with
  | .object members stop =>
    obtain ⟨s, filled, h⟩ := bind_eq_ok.mp h
    obtain ⟨_, -, h⟩ := bind_eq_ok.mp h
    refine ⟨s, fill_holds keeps (fun _ => Document.nesting_member) start filled, ?_⟩
    split at h
    next built => cases h; exact built
    next => cases h
  | .list items stop =>
    rw [decode_list] at h
    obtain ⟨s, filled, h⟩ := bind_eq_ok.mp h
    obtain ⟨_, -, h⟩ := bind_eq_ok.mp h
    refine ⟨s, fillItems_holds keeps (fun _ => Document.nesting_item) start filled, ?_⟩
    split at h
    next built =>
      obtain ⟨_, -, h⟩ := bind_eq_ok.mp h
      cases h
      exact built
    next => cases h
  | .null | .bool _ | .integer _ | .float _ | .text _ | .broken _ _ _ | .deep _ => cases h

end Record

theorem enumeration_origin {cases : List (String × Payload α)} {d : Document} {v : α}
    (h : enumeration cases d = .ok v) :
    ∃ c ∈ cases, c.2 none = .ok v ∨ ∃ part, part.nesting < d.nesting ∧ c.2 (some part) = .ok v := by
  unfold enumeration at h
  split at h
  next name =>
    split at h
    next payload found =>
      exact ⟨_, List.mem_of_find?_eq_some found, .inl (under_eq_ok.mp h)⟩
    next => cases h
  next => cases h
  next => cases h
  next name d rest stop =>
    split at h
    next payload found =>
      obtain ⟨w, decoded, h⟩ := bind_eq_ok.mp h
      have same : w = v := by
        split at h
        · cases h
        · split at h
          · cases h
            rfl
          · cases h
          · cases h
      subst same
      exact ⟨_, List.mem_of_find?_eq_some found, .inr ⟨d,
        Document.nesting_member (m := (.ok name, d)) List.mem_cons_self, decodeMember_eq_ok decoded⟩⟩
    next => cases h
  all_goals cases h

end TypeHints.Json
