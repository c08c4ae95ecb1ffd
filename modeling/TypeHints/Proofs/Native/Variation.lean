import TypeHints.Native.Decode
import TypeHints.Proofs.Json.Order
import TypeHints.Proofs.Json.Reading
import TypeHints.Proofs.Json.Writing

/-!
A declaration is decoded to the same value when the members of its records change places, at any
depth, and when its records get members that they have no fields for.
-/
namespace TypeHints
open Json

/-! ### Variations of a document -/

inductive RecordKind where
  | namedType | parameter | property | function | classLike

/-- What a document should be: a record, a native type, a list, or anything with no record inside. -/
inductive Shape where
  | plain
  | nativeType
  | record (kind : RecordKind)
  | list (item : Shape)

def RecordKind.fields : RecordKind → List (String × Shape)
  | .namedType => [("name", .plain), ("builtin", .plain), ("allows_null", .plain)]
  | .parameter => [("name", .plain), ("type", .nativeType)]
  | .property =>
    [("name", .plain), ("declaring_class", .plain), ("doc_comment", .plain), ("type", .nativeType)]
  | .function =>
    [("name", .plain), ("declaring_class", .plain), ("doc_comment", .plain),
     ("return_type", .nativeType), ("parameters", .list (.record .parameter))]
  | .classLike =>
    [("name", .plain), ("kind", .plain), ("parent", .plain), ("interfaces", .plain),
     ("traits", .plain), ("backing", .plain), ("uses", .plain), ("doc_comment", .plain),
     ("properties", .list (.record .property)), ("methods", .list (.record .function))]

def RecordKind.names (k : RecordKind) : List String := k.fields.map Prod.fst

def nativeCases : List (String × Shape) :=
  [("named", .record .namedType), ("union", .list .nativeType), ("intersection", .list .nativeType),
   ("other", .plain)]

/-- The second document varies the first one: in its records, members changed places and others came in
that are no fields, with names that may be used. Whatever stands in a member that is no field may be
another value. A record that is written as a list keeps its order, and so does every other list. -/
inductive Varies (usable : Label → Prop) : Shape → Document → Document → Prop
  | same (s : Shape) (d : Document) : Varies usable s d d
  | items {s : Shape} {items items' : List Document} (length : items.length = items'.length)
      (each : ∀ d d', (d, d') ∈ items.zip items' → Varies usable s d d') :
      Varies usable (.list s) (.list items none) (.list items' none)
  | case {s : Shape} {name : String} {d d' : Document} (known : (name, s) ∈ nativeCases)
      (varies : Varies usable s d d') :
      Varies usable .nativeType (.object [(.ok name, d)] none) (.object [(.ok name, d')] none)
  | values {k : RecordKind} {items items' : List Document} (length : items.length = items'.length)
      (each : ∀ field d d', (field, d, d') ∈ k.fields.zip (items.zip items') →
        Varies usable field.2 d d') :
      Varies usable (.record k) (.list items none) (.list items' none)
  | members {k : RecordKind} {members varied extra members' : List (Label × Document)}
      (labels : members.map Prod.fst = varied.map Prod.fst)
      (each : ∀ name s d d', (name, s) ∈ k.fields →
        ((.ok name, d), (.ok name, d')) ∈ members.zip varied → Varies usable s d d')
      (foreign : ∀ m ∈ extra, usable m.1 ∧ ∀ name ∈ k.names, m.1 ≠ .ok name)
      (order : (extra ++ varied).Perm members') :
      Varies usable (.record k) (.object members none) (.object members' none)

/-- A value that is decoded from a document is decoded from its variations too. -/
def Tolerant {α : Type} (decode : Decoder α) (s : Shape) : Prop :=
  ∀ room d d' v, Varies Label.Decodes s d d' → Written d' → decode (d.within room) = .ok v →
    decode (d'.within room) = .ok v

section Tolerant

variable {σ α β : Type} {decode : Decoder α} {s : Shape}

theorem tolerant_plain : Tolerant decode .plain := by
  intro room d d' v varies _ decoded
  cases varies
  exact decoded

theorem Tolerant.map (h : Tolerant decode s) (f : α → β) : Tolerant (fun d => (decode d).map f) s := by
  intro room d d' v varies written decoded
  obtain ⟨w, decoded, same⟩ := map_eq_ok.mp decoded
  exact map_eq_ok.mpr ⟨w, h room d d' w varies written decoded, same⟩

/-- What varies is a list or an object, and so is no `null`. -/
theorem Tolerant.option (h : Tolerant decode s) : Tolerant (decodeOption decode) s := by
  intro room d d' v varies written decoded
  have mapped : Tolerant (fun d => (decode d).map some) s := h.map some
  have follows := mapped room d d' v varies written
  cases varies with
  | same => exact decoded
  | _ => cases room <;> exact follows decoded

theorem decodeItems_forall₂ {items items' : List Document}
    (each : List.Forall₂ (fun d d' => ∀ v, decode d = .ok v → decode d' = .ok v) items items') {n : Nat}
    {vs : List α} (decoded : decodeItems decode n items = .ok vs) :
    decodeItems decode n items' = .ok vs := by
  induction each generalizing n vs with
  | nil => exact decoded
  | cons follows _ ih =>
    obtain ⟨v, first, decoded⟩ := bind_eq_ok.mp decoded
    obtain ⟨ws, others, decoded⟩ := bind_eq_ok.mp decoded
    have first := follows v (under_eq_ok.mp first)
    exact bind_eq_ok.mpr ⟨v, under_eq_ok.mpr first, bind_eq_ok.mpr ⟨ws, ih others, decoded⟩⟩

theorem Tolerant.list (h : Tolerant decode s) : Tolerant (decodeList decode) (.list s) := by
  intro room d d' v varies written decoded
  cases varies with
  | same => exact decoded
  | @items _ items items' length each =>
    cases room with
    | zero => cases decoded
    | succ room =>
      obtain ⟨vs, decoded, whole⟩ := bind_eq_ok.mp decoded
      refine bind_eq_ok.mpr ⟨vs, decodeItems_forall₂ ?_ decoded, whole⟩
      rw [List.forall₂_map_left_iff, List.forall₂_map_right_iff, List.forall₂_iff_zip]
      refine ⟨length, fun {d d'} member v => ?_⟩
      exact h room d d' v (each d d' member) (written.list d' (List.of_mem_zip member).2)

end Tolerant

/-! ### Records -/

theorem RecordKind.names_nodup (k : RecordKind) : k.names.Nodup := by
  cases k <;> decide

structure TolerantField {σ : Type} (f : Json.Field σ) (field : String × Shape) : Prop where
  name : f.name = field.1
  set : ∀ draft, Tolerant (f.set · draft) field.2

theorem TolerantField.plain {σ α : Type} {name : String} {decode : Decoder α} {store : α → σ → σ} :
    TolerantField (field name decode store) (name, .plain) :=
  ⟨rfl, fun _ => tolerant_plain⟩

theorem TolerantField.ofTolerant {σ α : Type} {name : String} {decode : Decoder α}
    {store : α → σ → σ} {s : Shape} (h : Tolerant decode s) :
    TolerantField (field name decode store) (name, s) :=
  ⟨rfl, fun _ => h.map _⟩

structure Tolerates {σ α : Type} (r : Record σ α) (k : RecordKind) : Prop where
  fields : List.Forall₂ TolerantField r.fields k.fields
  independent : r.fields.Pairwise Field.Independent
  lenient : r.strict = false

namespace Tolerates

variable {σ α : Type} {r : Record σ α} {k : RecordKind}

theorem names (h : Tolerates r k) : r.names = k.names := by
  rw [Record.names, RecordKind.names, ← List.forall₂_eq_eq_eq, List.forall₂_map_left_iff,
    List.forall₂_map_right_iff]
  exact h.fields.imp fun _ _ tolerant => tolerant.name

theorem field {f : Json.Field σ} {fields : List (Json.Field σ)} {shapes : List (String × Shape)}
    (each : List.Forall₂ TolerantField fields shapes)
    (known : f ∈ fields) : ∃ s, (f.name, s) ∈ shapes ∧ ∀ draft, Tolerant (f.set · draft) s := by
  induction each with
  | nil => cases known
  | @cons g shape _ _ first _ ih =>
    rcases List.mem_cons.mp known with rfl | later
    · exact ⟨shape.2, by rw [first.name]; exact List.mem_cons_self, first.set⟩
    · obtain ⟨s, inside, tolerant⟩ := ih later
      exact ⟨s, List.mem_cons_of_mem _ inside, tolerant⟩

/-- A member does for the record whatever the member does that it varies. -/
theorem replaces (h : Tolerates r k) {label : Label} {d d' : Document}
    (varies : ∀ name s, label = .ok name → (name, s) ∈ k.fields → Varies Label.Decodes s d d')
    (written : Written d') (room : Nat) :
    r.Replaces (label, d.within room) (label, d'.within room) := by
  intro seen draft seen' draft' step
  cases step with
  | field known new shown set =>
    obtain ⟨s, inside, tolerant⟩ := field h.fields known
    refine .field known new ?_ (tolerant draft room d d' _ (varies _ s rfl inside) written set)
    rw [memberFault?_within, written.memberFault?_eq_none]
  | foreign unknown lenient _ => exact .foreign unknown lenient (written.skipMember _ room)

theorem fillItems {fields : List (Json.Field σ)} {shapes : List (String × Shape)}
    (each : List.Forall₂ TolerantField fields shapes)
    {items items' : List Document} (length : items.length = items'.length)
    (varies : ∀ field d d', (field, d, d') ∈ shapes.zip (items.zip items') →
      Varies Label.Decodes field.2 d d')
    (written : ∀ d ∈ items', Written d) {room n : Nat} {draft draft' : σ}
    (filled : Record.fillItems n fields (items.map (Document.within room)) draft = .ok draft') :
    Record.fillItems n fields (items'.map (Document.within room)) draft = .ok draft' := by
  induction each generalizing items items' n draft with
  | nil => simpa [Record.fillItems] using filled
  | cons first _ ih =>
    match items, items' with
    | [], [] => exact filled
    | d :: items, d' :: items' =>
      rw [List.forall_mem_cons] at written
      obtain ⟨s, set, filled⟩ := bind_eq_ok.mp filled
      have set := first.set draft room d d' s (varies _ d d' List.mem_cons_self) written.1
        (under_eq_ok.mp set)
      refine bind_eq_ok.mpr ⟨s, under_eq_ok.mpr set, ih (Nat.succ.inj length) ?_ written.2 filled⟩
      exact fun field d d' member => varies field d d' (List.mem_cons_of_mem _ member)

theorem replaces_all (h : Tolerates r k) {members varied : List (Label × Document)}
    (labels : members.map Prod.fst = varied.map Prod.fst)
    (each : ∀ name s d d', (name, s) ∈ k.fields →
      ((.ok name, d), (.ok name, d')) ∈ members.zip varied → Varies Label.Decodes s d d')
    (written : ∀ m ∈ varied, Written m.2) (room : Nat) :
    List.Forall₂ r.Replaces (members.map fun m => (m.1, m.2.within room))
      (varied.map fun m => (m.1, m.2.within room)) := by
  rw [← List.forall₂_eq_eq_eq, List.forall₂_map_left_iff, List.forall₂_map_right_iff] at labels
  rw [List.forall₂_map_left_iff, List.forall₂_map_right_iff, List.forall₂_iff_zip]
  refine ⟨labels.length_eq, fun {m m'} member => ?_⟩
  obtain ⟨label, d⟩ := m
  obtain ⟨label', d'⟩ := m'
  obtain rfl : label = label' := List.forall₂_zip labels member
  refine h.replaces ?_ (written _ (List.of_mem_zip member).2) room
  rintro name s rfl known
  exact each name s d d' known member

theorem passes (h : Tolerates r k) {extra : List (Label × Document)}
    (foreign : ∀ m ∈ extra, Label.Decodes m.1 ∧ ∀ name ∈ k.names, m.1 ≠ .ok name)
    (written : ∀ m ∈ extra, Written m.2) (room : Nat) :
    ∀ m ∈ extra.map fun m => (m.1, m.2.within room),
      ∃ name, m.1 = .ok name ∧ name ∉ r.names ∧ skipMember name m.2 = .ok () := by
  refine List.forall_mem_map.mpr fun m member => ?_
  obtain ⟨⟨name, label⟩, unknown⟩ := foreign m member
  refine ⟨name, label, fun known => unknown name (h.names ▸ known) label, ?_⟩
  exact (written m member).skipMember name room

/-- Members vary in their places, then others come in front of them, then all change places. -/
theorem decode (h : Tolerates r k) : Tolerant r.decode (.record k) := by
  intro room d d' v varies written decoded
  have distinct : r.names.Nodup := h.names ▸ k.names_nodup
  cases varies with
  | same => exact decoded
  | @values _ items items' length each =>
    cases room with
    | zero => cases decoded
    | succ room =>
      rw [Document.within, Record.decode_list] at decoded ⊢
      obtain ⟨s, filled, rest⟩ := bind_eq_ok.mp decoded
      refine bind_eq_ok.mpr ⟨s, fillItems h.fields length each written.list filled, ?_⟩
      simpa only [Record.closedItems, List.length_map, length] using rest
  | @members _ members varied extra members' labels each foreign order =>
    cases room with
    | zero => cases decoded
    | succ room =>
      obtain ⟨s, filled, rest⟩ := bind_eq_ok.mp decoded
      refine bind_eq_ok.mpr ⟨s, ?_, rest⟩
      have inside (m : Label × Document) (member : m ∈ extra ++ varied) : Written m.2 :=
        (written.object.2 m (order.subset member)).2
      have varied := Record.fill_replaces distinct (h.replaces_all labels each
        (fun m member => inside m (List.mem_append_right _ member)) room) filled
      have more := Record.fill_foreign distinct h.lenient (h.passes foreign
        (fun m member => inside m (List.mem_append_left _ member)) room) varied
      rw [← List.map_append] at more
      exact Record.fill_perm distinct h.independent (order.map _) more

end Tolerates

/-! ### Native types -/

theorem NamedType.tolerates : Tolerates NamedType.record .namedType where
  fields := .cons .plain <| .cons .plain <| .cons .plain .nil
  independent := by
    simp only [record, List.pairwise_cons, List.forall_mem_cons, List.not_mem_nil, false_implies,
      implies_true, and_true, List.Pairwise.nil]
    and_intros <;> exact field_independent fun _ _ _ => rfl
  lenient := rfl

theorem NativeType.tolerant_decodeWithin (levels : Nat) : Tolerant (decodeWithin levels) .nativeType := by
  induction levels with
  | zero =>
    intro room d d' v _ _ decoded
    cases decoded
  | succ levels ih =>
    intro room d d' v varies written decoded
    cases varies with
    | same => exact decoded
    | @case s name d d' known varies =>
      cases room with
      | zero => cases decoded
      | succ room =>
        have written := (written.object.2 _ List.mem_cons_self).2
        have shown : memberFault? (d'.within room) = none := by
          rw [memberFault?_within, written.memberFault?_eq_none]
        have follows {decode : Decoder NativeType} (h : Tolerant decode s)
            (member : decodeMember name decode (d.within room) = .ok v) :
            decodeMember name decode (d'.within room) = .ok v :=
          decodeMember_ok shown (h room d d' v varies written (decodeMember_eq_ok member)) name
        obtain ⟨c, found, decoded⟩ := enumeration_single_eq_ok.mp decoded
        refine enumeration_single_eq_ok.mpr ⟨c, found, ?_⟩
        simp only [nativeCases, List.mem_cons, List.not_mem_nil, or_false, Prod.mk.injEq] at known
        rcases known with ⟨rfl, rfl⟩ | ⟨rfl, rfl⟩ | ⟨rfl, rfl⟩ | ⟨rfl, rfl⟩ <;> cases found
        · exact follows (NamedType.tolerates.decode.map _) decoded
        · exact follows (ih.list.map _) decoded
        · exact follows (ih.list.map _) decoded
        · exact follows tolerant_plain decoded

theorem NativeType.tolerant_decode : Tolerant NativeType.decode .nativeType := tolerant_decodeWithin _

/-! ### Members and classes -/

theorem ParameterDecl.tolerates : Tolerates ParameterDecl.record .parameter where
  fields := .cons .plain <| .cons (.ofTolerant NativeType.tolerant_decode.option) .nil
  independent := by
    simp only [record, List.pairwise_cons, List.forall_mem_cons, List.not_mem_nil, false_implies,
      implies_true, and_true, List.Pairwise.nil]
    exact field_independent fun _ _ _ => rfl
  lenient := rfl

theorem PropertyDecl.tolerates : Tolerates PropertyDecl.record .property where
  fields :=
    .cons .plain <| .cons .plain <| .cons .plain <|
    .cons (.ofTolerant NativeType.tolerant_decode.option) .nil
  independent := by
    simp only [record, List.pairwise_cons, List.forall_mem_cons, List.not_mem_nil, false_implies,
      implies_true, and_true, List.Pairwise.nil]
    and_intros <;> exact field_independent fun _ _ _ => rfl
  lenient := rfl

theorem FunctionDecl.tolerates : Tolerates FunctionDecl.record .function where
  fields :=
    .cons .plain <| .cons .plain <| .cons .plain <|
    .cons (.ofTolerant NativeType.tolerant_decode.option) <|
    .cons (.ofTolerant ParameterDecl.tolerates.decode.list) .nil
  independent := by
    simp only [record, List.pairwise_cons, List.forall_mem_cons, List.not_mem_nil, false_implies,
      implies_true, and_true, List.Pairwise.nil]
    and_intros <;> exact field_independent fun _ _ _ => rfl
  lenient := rfl

theorem ClassDecl.tolerates : Tolerates ClassDecl.record .classLike where
  fields :=
    .cons .plain <| .cons .plain <| .cons .plain <| .cons .plain <|
    .cons .plain <| .cons .plain <| .cons .plain <| .cons .plain <|
    .cons (.ofTolerant PropertyDecl.tolerates.decode.list) <|
    .cons (.ofTolerant FunctionDecl.tolerates.decode.list) .nil
  independent := by
    simp only [record, List.pairwise_cons, List.forall_mem_cons, List.not_mem_nil, false_implies,
      implies_true, and_true, List.Pairwise.nil]
    and_intros <;> exact field_independent fun _ _ _ => rfl
  lenient := rfl

/-! ### The main statement -/

/-- What is decoded from a JSON text is decoded from every JSON text whose document varies that of the
first. -/
def Stable {α : Type} (usable : Label → Prop) (decode : Decoder α) (s : Shape) : Prop :=
  ∀ text text' d d' v, IsJson text d → IsJson text' d' → Varies usable s d d' →
    decodeString decode text = .ok v → decodeString decode text' = .ok v

theorem Tolerant.stable {α : Type} {decode : Decoder α} {s : Shape} (h : Tolerant decode s) :
    Stable Label.Decodes decode s := by
  intro text text' d d' v valid valid' varies decoded
  rw [decodeString, ofString_of_isJson valid] at decoded
  rw [decodeString, ofString_of_isJson valid']
  exact h maxNesting d d' v varies valid'.written decoded

/-- The order of members does not matter to any declaration, and neither do members that are no fields. -/
theorem variations_decode :
    Stable Label.Decodes NativeType.decode .nativeType ∧
    Stable Label.Decodes ClassDecl.decode (.record .classLike) ∧
    Stable Label.Decodes (decodeList ClassDecl.decode) (.list (.record .classLike)) ∧
    Stable Label.Decodes FunctionDecl.decode (.record .function) ∧
    Stable Label.Decodes ParameterDecl.decode (.record .parameter) ∧
    Stable Label.Decodes PropertyDecl.decode (.record .property) :=
  ⟨NativeType.tolerant_decode.stable, ClassDecl.tolerates.decode.stable,
    ClassDecl.tolerates.decode.list.stable, FunctionDecl.tolerates.decode.stable,
    ParameterDecl.tolerates.decode.stable, PropertyDecl.tolerates.decode.stable⟩

def plainFunction : Document :=
  .ofMembers [("name", .text "f"), ("parameters", .ofList [.ofMembers [("name", .text "x")]])]

/-- A parameter with a member that looks like a parameter itself. -/
def notedParameter : Document :=
  .ofMembers [("note", .ofMembers [("name", .null)]), ("name", .text "x")]

def notedFunction : Document :=
  .ofMembers [("parameters", .ofList [notedParameter]), ("name", .text "f")]

theorem plainFunction_isJson : IsJson plainFunction.compact plainFunction := by
  refine Plain.compact_isJson (.object ?_)
  rw [List.forall_mem_cons, List.forall_mem_singleton]
  refine ⟨.text _, .list (List.forall_mem_singleton.mpr (.object ?_))⟩
  exact List.forall_mem_singleton.mpr (.text _)

theorem notedFunction_isJson : IsJson notedFunction.compact notedFunction := by
  refine Plain.compact_isJson (.object ?_)
  rw [List.forall_mem_cons, List.forall_mem_singleton]
  refine ⟨.list (List.forall_mem_singleton.mpr (.object ?_)), .text _⟩
  rw [List.forall_mem_cons, List.forall_mem_singleton]
  exact ⟨.object (List.forall_mem_singleton.mpr .null), .text _⟩

theorem notedFunction_varies :
    Varies Label.Decodes (.record .function) plainFunction notedFunction := by
  refine @Varies.members _ .function _
    [(.ok "name", .text "f"), (.ok "parameters", .ofList [notedParameter])] [] _ rfl
    (fun name s d d' known member => ?_) nofun (.swap _ _ _)
  rcases List.mem_cons.mp member with first | second
  · cases first
    exact .same s _
  · cases List.mem_singleton.mp second
    obtain rfl : s = .list (.record .parameter) := by simpa [RecordKind.fields] using known
    refine .items rfl fun d d' member => ?_
    cases List.mem_singleton.mp member
    have foreign : ∀ name ∈ RecordKind.parameter.names, (.ok "note" : Label) ≠ .ok name := by decide
    refine @Varies.members _ .parameter _ [(.ok "name", .text "x")] [(.ok "note", _)] _ rfl
      (fun name s d d' _ member => ?_) (List.forall_mem_singleton.mpr ⟨⟨_, rfl⟩, foreign⟩) (.refl _)
    cases List.mem_singleton.mp member
    exact .same s _

theorem variations_decode_notedFunction :
    decodeString FunctionDecl.decode notedFunction.compact =
      .ok { name := "f", parameters := [{ name := "x" }] } := by
  refine variations_decode.2.2.2.1 _ _ _ _ _ plainFunction_isJson notedFunction_isJson
    notedFunction_varies ?_
  rw [decodeString, ofString_of_isJson plainFunction_isJson]
  rfl

/-- A name that holds half a surrogate pair is the name of no field, but a member with that name cannot be
put in. -/
theorem halfPair_unusable :
    ∃ d d', IsJson "\x7b\"name\":\"x\"\x7d" d ∧ IsJson "\x7b\"name\":\"x\",\"\\udead\":null\x7d" d' ∧
      Varies (fun _ => True) (.record .parameter) d d' ∧
      decodeString ParameterDecl.decode "\x7b\"name\":\"x\"\x7d" = .ok { name := "x" } ∧
      decodeString ParameterDecl.decode "\x7b\"name\":\"x\",\"\\udead\":null\x7d" =
        .error ⟨[.unknown], .malformed .loneSurrogate⟩ := by
  have plain : Plain (.ofMembers [("name", .text "x")]) :=
    .object (List.forall_mem_singleton.mpr (.text _))
  have valid : IsJson "\x7b\"name\":\"x\"\x7d" (.object [(.ok "name", .text "x")] none) :=
    plain.compact_isJson
  have valid' : IsJson "\x7b\"name\":\"x\",\"\\udead\":null\x7d"
      (.object [(.ok "name", .text "x"), (.error .loneSurrogate, .null)] none) := by
    have half := @MemberOf.member _ .null [] [] _ isBlanks_nil isContent_halfPair isBlanks_nil
      TextOf.null.padded
    have text := (TextOf.object (.cons (memberOf_compact "name" (Plain.text "x").textOf_compact)
      (.last half))).padded
    rw [labelOf_halfPair] at text
    exact text
  refine ⟨_, _, valid, valid', ?_, ?_, ?_⟩
  · refine @Varies.members _ .parameter _ [(.ok "name", .text "x")] [(.error .loneSurrogate, .null)] _ rfl
      (fun name s d d' _ member => ?_) (List.forall_mem_singleton.mpr ⟨trivial, nofun⟩) (.swap _ _ _)
    cases List.mem_singleton.mp member
    exact .same s _
  · rw [decodeString, ofString_of_isJson valid]
    rfl
  · rw [decodeString, ofString_of_isJson valid']
    rfl

end TypeHints
