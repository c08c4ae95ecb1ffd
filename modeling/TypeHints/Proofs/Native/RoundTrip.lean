import TypeHints.Native.Decode
import TypeHints.Native.Encode
import TypeHints.Proofs.Json.Records
import TypeHints.Proofs.Json.Writing

namespace TypeHints
open Json

/-! ### Native types -/

theorem NamedType.decode_toDocument (t : NamedType) :
    NamedType.record.decode t.toDocument = .ok t :=
  Record.decode_sets (r := NamedType.record) (by decide)
    (.store rfl rfl <| .store rfl rfl <| .store rfl rfl .nil) rfl

theorem NamedType.plain_toDocument (t : NamedType) : Plain t.toDocument := by
  refine .object ?_
  simp only [List.forall_mem_cons]
  exact ⟨.text _, .bool _, .bool _, List.forall_mem_nil _⟩

namespace NativeType

theorem toDocuments_eq_map (types : List NativeType) : toDocuments types = types.map toDocument := by
  induction types with
  | nil => rfl
  | cons t types ih => rw [toDocuments, ih]; rfl

mutual

theorem plain_toDocument (t : NativeType) : Plain t.toDocument := by
  cases t with
  | named t => exact .object (List.forall_mem_singleton.mpr t.plain_toDocument)
  | union types => exact .object (List.forall_mem_singleton.mpr (.list (plain_toDocuments types)))
  | intersection types => exact .object (List.forall_mem_singleton.mpr (.list (plain_toDocuments types)))
  | other kind => exact .object (List.forall_mem_singleton.mpr (.text kind))

theorem plain_toDocuments (types : List NativeType) : ∀ d ∈ toDocuments types, Plain d := by
  cases types with
  | nil => exact List.forall_mem_nil _
  | cons t types => exact List.forall_mem_cons.mpr ⟨plain_toDocument t, plain_toDocuments types⟩

end

theorem decodeWithin_toDocument {room : Nat} {t : NativeType} (shallow : t.toDocument.nesting ≤ room) :
    decodeWithin room t.toDocument = .ok t := by
  induction room generalizing t with
  | zero => cases t <;> simp [toDocument, Document.ofMembers, Document.nesting] at shallow
  | succ room ih =>
    have members {types : List NativeType} {name : String}
        (shallow : (Document.ofMembers [(name, .ofList (toDocuments types))]).nesting ≤ room + 1) :
        decodeList (decodeWithin room) (.ofList (toDocuments types)) = .ok types := by
      rw [toDocuments_eq_map] at shallow ⊢
      obtain ⟨-, each⟩ := Document.nesting_ofMembers_le.mp shallow
      obtain ⟨-, each⟩ := Document.nesting_ofList_le.mp (Nat.le_of_lt (each _ List.mem_cons_self))
      exact decodeList_ofList fun t member =>
        ih (Nat.le_of_lt_succ (each _ (List.mem_map_of_mem member)))
    rw [decodeWithin]
    cases t with
    | named t =>
      rw [toDocument]
      refine enumeration_single rfl rfl ?_
      rw [newtype, NamedType.decode_toDocument]
      rfl
    | union types =>
      rw [toDocument] at shallow ⊢
      refine enumeration_single rfl rfl ?_
      rw [newtype, members shallow]
      rfl
    | intersection types =>
      rw [toDocument] at shallow ⊢
      refine enumeration_single rfl rfl ?_
      rw [newtype, members shallow]
      rfl
    | other kind =>
      rw [toDocument]
      exact enumeration_single rfl rfl rfl

theorem decode_toDocument {t : NativeType} (shallow : t.toDocument.nesting ≤ maxNesting) :
    NativeType.decode t.toDocument = .ok t :=
  decodeWithin_toDocument (Nat.le_succ_of_le shallow)

theorem plain_optional (t : Option NativeType) : Plain (optional t) := by
  cases t with
  | none => exact .null
  | some t => exact plain_toDocument t

theorem decodeOption_optional {t : Option NativeType} (shallow : (optional t).nesting ≤ maxNesting) :
    decodeOption NativeType.decode (optional t) = .ok t := by
  cases t with
  | none => rfl
  | some t =>
    have decoded := decode_toDocument shallow
    cases t <;>
      simp only [optional, toDocument, Document.ofMembers, decodeOption_object] at decoded ⊢ <;>
      rw [decoded] <;> rfl

end NativeType

/-! ### Parameters, properties and functions -/

theorem ParameterDecl.plain_toDocument (p : ParameterDecl) : Plain p.toDocument := by
  refine .object ?_
  simp only [List.forall_mem_cons]
  exact ⟨.text _, NativeType.plain_optional _, List.forall_mem_nil _⟩

theorem ParameterDecl.decode_toDocument {p : ParameterDecl}
    (shallow : p.toDocument.nesting ≤ maxNesting) : ParameterDecl.decode p.toDocument = .ok p := by
  have each := Document.nesting_ofMembers_le.mp shallow
  simp only [List.forall_mem_cons] at each
  have type := NativeType.decodeOption_optional (Nat.le_of_lt each.2.2.1)
  exact Record.decode_sets (r := ParameterDecl.record) (by decide)
    (.store rfl rfl <| .store type (NativeType.plain_optional _).memberFault?_eq_none .nil) rfl

theorem PropertyDecl.plain_toDocument (p : PropertyDecl) : Plain p.toDocument := by
  refine .object ?_
  simp only [List.forall_mem_cons]
  exact ⟨.text _, .text _, .ofText? _, NativeType.plain_optional _, List.forall_mem_nil _⟩

theorem PropertyDecl.decode_toDocument {p : PropertyDecl}
    (shallow : p.toDocument.nesting ≤ maxNesting) : PropertyDecl.decode p.toDocument = .ok p := by
  have each := Document.nesting_ofMembers_le.mp shallow
  simp only [List.forall_mem_cons] at each
  have type := NativeType.decodeOption_optional (Nat.le_of_lt each.2.2.2.2.1)
  exact Record.decode_sets (r := PropertyDecl.record) (by decide)
    (.store rfl rfl <| .store rfl rfl <|
      .store (decodeOption_text? _) (Plain.ofText? _).memberFault?_eq_none <|
      .store type (NativeType.plain_optional _).memberFault?_eq_none .nil) rfl

theorem FunctionDecl.plain_toDocument (f : FunctionDecl) : Plain f.toDocument := by
  refine .object ?_
  simp only [List.forall_mem_cons]
  exact ⟨.text _, .ofText? _, .ofText? _, NativeType.plain_optional _,
    .ofMap fun p _ => p.plain_toDocument, List.forall_mem_nil _⟩

theorem FunctionDecl.decode_toDocument {f : FunctionDecl}
    (shallow : f.toDocument.nesting ≤ maxNesting) : FunctionDecl.decode f.toDocument = .ok f := by
  have each := Document.nesting_ofMembers_le.mp shallow
  simp only [List.forall_mem_cons] at each
  obtain ⟨-, -, -, -, type, parameters, -⟩ := each
  have type := NativeType.decodeOption_optional (Nat.le_of_lt type)
  have parameters := decodeList_of_nesting (fun p => p.decode_toDocument) (Nat.le_of_lt parameters)
  exact Record.decode_sets (r := FunctionDecl.record) (by decide)
    (.store rfl rfl <| .store (decodeOption_text? _) (Plain.ofText? _).memberFault?_eq_none <|
      .store (decodeOption_text? _) (Plain.ofText? _).memberFault?_eq_none <|
      .store type (NativeType.plain_optional _).memberFault?_eq_none <|
      .store parameters rfl .nil) rfl

/-! ### Classes -/

theorem ClassKind.decode_name (k : ClassKind) : ClassKind.decode (.text k.name) = .ok k := by
  cases k <;> rfl

theorem Kind.decodeOption_name (k : Option Kind) :
    decodeOption Kind.decode (.ofText? (k.map Kind.name)) = .ok k := by
  cases k with
  | none => rfl
  | some k => cases k <;> rfl

theorem ClassDecl.plain_toDocument (c : ClassDecl) : Plain c.toDocument := by
  refine .object ?_
  simp only [List.forall_mem_cons]
  exact ⟨.text _, .text _, .ofText? _, .ofMap fun s _ => .text s, .ofMap fun s _ => .text s, .ofText? _,
    .object (List.forall_mem_map.mpr fun e _ => .text e.2), .ofText? _,
    .ofMap fun p _ => p.plain_toDocument, .ofMap fun f _ => f.plain_toDocument, List.forall_mem_nil _⟩

theorem ClassDecl.decode_toDocument {c : ClassDecl}
    (shallow : c.toDocument.nesting ≤ maxNesting) : ClassDecl.decode c.toDocument = .ok c := by
  have each := Document.nesting_ofMembers_le.mp shallow
  simp only [List.forall_mem_cons] at each
  obtain ⟨-, -, -, -, -, -, -, -, -, properties, methods, -⟩ := each
  have properties := decodeList_of_nesting (fun p => p.decode_toDocument) (Nat.le_of_lt properties)
  have methods := decodeList_of_nesting (fun f => f.decode_toDocument) (Nat.le_of_lt methods)
  have texts (names : List String) :
      decodeList decodeText (.ofList (names.map Document.text)) = .ok names :=
    decodeList_ofList fun _ _ => rfl
  have uses : decodeMap decodeText (.ofMembers (c.uses.entries.map fun e => (e.1, .text e.2))) =
      .ok c.uses := @decodeMap_entries _ decodeText .text (fun _ => rfl) (fun _ => rfl) c.uses
  exact Record.decode_sets (r := ClassDecl.record) (by decide)
    (.store rfl rfl <| .store c.kind.decode_name rfl <|
      .store (decodeOption_text? _) (Plain.ofText? _).memberFault?_eq_none <|
      .store (texts _) rfl <| .store (texts _) rfl <|
      .store (Kind.decodeOption_name _) (Plain.ofText? _).memberFault?_eq_none <|
      .store uses rfl <| .store (decodeOption_text? _) (Plain.ofText? _).memberFault?_eq_none <|
      .store properties rfl <| .store methods rfl .nil) rfl

/-! ### What was decoded nests no deeper than its document -/

theorem NativeType.nesting_toDocument_le {room : Nat} {d : Document} {t : NativeType}
    (h : decodeWithin room d = .ok t) : t.toDocument.nesting ≤ d.nesting := by
  induction room generalizing d t with
  | zero => cases h
  | succ room ih =>
    have members {part : Document} {types : List NativeType} {name : String}
        (inner : part.nesting < d.nesting)
        (decoded : decodeList (decodeWithin room) part = .ok types) :
        (Document.ofMembers [(name, .ofList (toDocuments types))]).nesting ≤ d.nesting := by
      obtain ⟨isList, origin⟩ := decodeList_origin decoded
      rw [Document.nesting_ofMembers_le, List.forall_mem_singleton, toDocuments_eq_map]
      refine ⟨by omega, Nat.lt_of_le_of_lt (Document.nesting_ofList_le.mpr ⟨isList, ?_⟩) inner⟩
      refine List.forall_mem_map.mpr fun t member => ?_
      obtain ⟨item, below, same⟩ := origin t member
      exact Nat.lt_of_le_of_lt (ih same) below
    rw [decodeWithin] at h
    obtain ⟨c, given, absent | ⟨part, inner, payload⟩⟩ := enumeration_origin h
    · simp only [List.mem_cons, List.not_mem_nil, or_false] at given
      rcases given with rfl | rfl | rfl | rfl <;> cases absent
    · simp only [List.mem_cons, List.not_mem_nil, or_false] at given
      rcases given with rfl | rfl | rfl | rfl
      all_goals
        obtain ⟨v, decoded, rfl⟩ := map_eq_ok.mp payload
        rw [toDocument]
      · have isObject := Record.nesting_pos decoded
        rw [Document.nesting_ofMembers_le, List.forall_mem_singleton]
        refine ⟨by omega, Nat.lt_of_le_of_lt (Document.nesting_ofMembers_le.mpr ⟨isObject, ?_⟩) inner⟩
        simp only [List.forall_mem_cons]
        exact ⟨isObject, isObject, isObject, List.forall_mem_nil _⟩
      · exact members inner decoded
      · exact members inner decoded
      · rw [Document.nesting_ofMembers_le, List.forall_mem_singleton]
        exact ⟨by omega, Nat.lt_of_le_of_lt (Nat.zero_le _) inner⟩

theorem NativeType.nesting_optional_le {d : Document} {t : Option NativeType}
    (h : decodeOption NativeType.decode d = .ok t) : (optional t).nesting ≤ d.nesting := by
  cases t with
  | none => exact Nat.zero_le _
  | some t => exact nesting_toDocument_le (decodeOption_eq_some h)

theorem ParameterDecl.nesting_toDocument_le {d : Document} {p : ParameterDecl}
    (h : ParameterDecl.decode d = .ok p) : p.toDocument.nesting ≤ d.nesting := by
  have isRecord := Record.nesting_pos h
  have keeps : ∀ f ∈ record.fields, f.Keeps (·.nesting < d.nesting)
      fun s => (NativeType.optional s.2).nesting < d.nesting := by
    simp only [record, List.forall_mem_cons]
    refine ⟨?_, ?_, List.forall_mem_nil _⟩ <;> refine field_keeps fun part s v inner type decoded => ?_
    · exact type
    · exact Nat.lt_of_le_of_lt (NativeType.nesting_optional_le decoded) inner
  obtain ⟨s, type, built⟩ := Record.decode_holds h isRecord keeps
  obtain ⟨name, -, same⟩ := bind_eq_ok.mp built
  cases same
  rw [toDocument, Document.nesting_ofMembers_le]
  simp only [List.forall_mem_cons]
  exact ⟨isRecord, isRecord, type, List.forall_mem_nil _⟩

theorem PropertyDecl.nesting_toDocument_le {d : Document} {p : PropertyDecl}
    (h : PropertyDecl.decode d = .ok p) : p.toDocument.nesting ≤ d.nesting := by
  have isRecord := Record.nesting_pos h
  have keeps : ∀ f ∈ record.fields, f.Keeps (·.nesting < d.nesting)
      fun s => (NativeType.optional s.2.type).nesting < d.nesting := by
    simp only [record, List.forall_mem_cons]
    refine ⟨?_, ?_, ?_, ?_, List.forall_mem_nil _⟩ <;>
      refine field_keeps fun part s v inner type decoded => ?_
    iterate 3 exact type
    · exact Nat.lt_of_le_of_lt (NativeType.nesting_optional_le decoded) inner
  obtain ⟨s, type, built⟩ := Record.decode_holds h isRecord keeps
  obtain ⟨name, -, same⟩ := bind_eq_ok.mp built
  cases same
  rw [toDocument, Document.nesting_ofMembers_le]
  simp only [List.forall_mem_cons, Document.nesting_ofText?]
  exact ⟨isRecord, isRecord, isRecord, isRecord, type, List.forall_mem_nil _⟩

/-- A function that lacks its list of parameters is written with an empty one. -/
theorem FunctionDecl.nesting_toDocument_le {d : Document} {f : FunctionDecl}
    (h : FunctionDecl.decode d = .ok f) : f.toDocument.nesting ≤ max 2 d.nesting := by
  have isRecord := Record.nesting_pos h
  have keeps : ∀ f ∈ record.fields, f.Keeps (·.nesting < d.nesting) fun s =>
      (NativeType.optional s.2.returnType).nesting < d.nesting ∧
        (Document.ofList (s.2.parameters.map ParameterDecl.toDocument)).nesting < max 2 d.nesting := by
    simp only [record, List.forall_mem_cons]
    refine ⟨?_, ?_, ?_, ?_, ?_, List.forall_mem_nil _⟩ <;>
      refine field_keeps fun part s v inner start decoded => ?_
    iterate 3 exact start
    · exact ⟨Nat.lt_of_le_of_lt (NativeType.nesting_optional_le decoded) inner, start.2⟩
    · have list : _ ≤ max 1 part.nesting := nesting_decodedList_le (fun _ _ decoded =>
        Nat.le_trans (ParameterDecl.nesting_toDocument_le decoded) (Nat.le_max_right 0 _)) decoded
      exact ⟨start.1, Nat.lt_of_le_of_lt list (by omega)⟩
  obtain ⟨s, ⟨type, parameters⟩, built⟩ := Record.decode_holds h
    ⟨isRecord, Nat.lt_of_lt_of_le Nat.one_lt_two (Nat.le_max_left ..)⟩ keeps
  obtain ⟨name, -, same⟩ := bind_eq_ok.mp built
  cases same
  rw [toDocument, Document.nesting_ofMembers_le]
  simp only [List.forall_mem_cons, Document.nesting_ofText?, Document.nesting]
  exact ⟨by omega, by omega, by omega, by omega, by omega, parameters, List.forall_mem_nil _⟩

theorem ClassDecl.nesting_toDocument_le {d : Document} {c : ClassDecl}
    (h : ClassDecl.decode d = .ok c) : c.toDocument.nesting ≤ max 4 d.nesting := by
  have empty : (Document.ofList []).nesting < max 4 d.nesting :=
    Nat.lt_of_lt_of_le (by decide) (Nat.le_max_left ..)
  have keeps : ∀ f ∈ record.fields, f.Keeps (·.nesting < d.nesting) fun s =>
      (Document.ofList (s.2.properties.map PropertyDecl.toDocument)).nesting < max 4 d.nesting ∧
        (Document.ofList (s.2.methods.map FunctionDecl.toDocument)).nesting < max 4 d.nesting := by
    simp only [record, List.forall_mem_cons]
    refine ⟨?_, ?_, ?_, ?_, ?_, ?_, ?_, ?_, ?_, ?_, List.forall_mem_nil _⟩ <;>
      refine field_keeps fun part s v inner start decoded => ?_
    iterate 8 exact start
    · have list : _ ≤ max 1 part.nesting := nesting_decodedList_le (fun _ _ decoded =>
        Nat.le_trans (PropertyDecl.nesting_toDocument_le decoded) (Nat.le_max_right 0 _)) decoded
      exact ⟨Nat.lt_of_le_of_lt list (by omega), start.2⟩
    · have list : _ ≤ max 3 part.nesting :=
        nesting_decodedList_le (fun _ _ => FunctionDecl.nesting_toDocument_le) decoded
      exact ⟨start.1, Nat.lt_of_le_of_lt list (by omega)⟩
  obtain ⟨s, ⟨properties, methods⟩, built⟩ := Record.decode_holds h ⟨empty, empty⟩ keeps
  obtain ⟨name, -, same⟩ := bind_eq_ok.mp built
  cases same
  have texts (names : List String) : (Document.ofList (names.map Document.text)).nesting ≤ 1 :=
    Document.nesting_ofList_le.mpr ⟨Nat.one_pos, List.forall_mem_map.mpr fun _ _ => Nat.one_pos⟩
  have uses :
      (Document.ofMembers (s.2.uses.entries.map fun e => (e.1, Document.text e.2))).nesting ≤ 1 :=
    Document.nesting_ofMembers_le.mpr ⟨Nat.one_pos, List.forall_mem_map.mpr fun _ _ => Nat.one_pos⟩
  have interfaces := texts s.2.interfaces
  have traits := texts s.2.traits
  rw [toDocument, Document.nesting_ofMembers_le]
  simp only [List.forall_mem_cons, Document.nesting_ofText?, Document.nesting]
  refine ⟨?_, ?_, ?_, ?_, ?_, ?_, ?_, ?_, ?_, properties, methods, List.forall_mem_nil _⟩ <;> omega

/-! ### The main statement -/

/-- A value is decoded from the text that it is written as, if that is not nested too deep; and it is not
if the value was decoded from some text. -/
def Survives {α : Type} (decode : Decoder α) (toDocument : α → Document) : Prop :=
  (∀ v, (toDocument v).nesting ≤ maxNesting →
    decodeString decode (toDocument v).compact = .ok v) ∧
  ∀ text v, decodeString decode text = .ok v → decodeString decode (toDocument v).compact = .ok v

theorem survives {α : Type} {decode : Decoder α} {toDocument : α → Document}
    (plain : ∀ v, Plain (toDocument v))
    (restores : ∀ v, (toDocument v).nesting ≤ maxNesting → decode (toDocument v) = .ok v)
    (shallow : ∀ d v, decode d = .ok v → (toDocument v).nesting ≤ max 4 d.nesting) :
    Survives decode toDocument := by
  have written (v : α) (bound : (toDocument v).nesting ≤ maxNesting) :
      decodeString decode (toDocument v).compact = .ok v := by
    rw [decodeString, (plain v).ofString_compact, Document.within_of_nesting bound]
    exact restores v bound
  refine ⟨written, fun text v decoded => written v ?_⟩
  -- What the text left out is written all the same, so a value may take more levels than its text.
  have room := Document.nesting_within maxNesting (Document.ofString text)
  have := shallow _ v decoded
  have limit : maxNesting = 127 := rfl
  omega

theorem declarations_survive :
    Survives NativeType.decode NativeType.toDocument ∧
    Survives ParameterDecl.decode ParameterDecl.toDocument ∧
    Survives PropertyDecl.decode PropertyDecl.toDocument ∧
    Survives FunctionDecl.decode FunctionDecl.toDocument ∧
    Survives ClassDecl.decode ClassDecl.toDocument := by
  refine ⟨survives NativeType.plain_toDocument (fun _ => NativeType.decode_toDocument) ?_,
    survives ParameterDecl.plain_toDocument (fun _ => ParameterDecl.decode_toDocument) ?_,
    survives PropertyDecl.plain_toDocument (fun _ => PropertyDecl.decode_toDocument) ?_,
    survives FunctionDecl.plain_toDocument (fun _ => FunctionDecl.decode_toDocument) ?_,
    survives ClassDecl.plain_toDocument (fun _ => ClassDecl.decode_toDocument) ?_⟩
  · exact fun d t h => Nat.le_trans (NativeType.nesting_toDocument_le h) (Nat.le_max_right ..)
  · exact fun d p h => Nat.le_trans (ParameterDecl.nesting_toDocument_le h) (Nat.le_max_right ..)
  · exact fun d p h => Nat.le_trans (PropertyDecl.nesting_toDocument_le h) (Nat.le_max_right ..)
  · intro d f h
    have := FunctionDecl.nesting_toDocument_le h
    omega
  · exact fun d c h => ClassDecl.nesting_toDocument_le h

def shopDecl : ClassDecl where
  name := "App\\Shop"
  interfaces := ["Countable"]
  uses := Keyed.ofList [("Price", "App\\Model\\Price"), ("Z", "App\\Z")]
  docComment := some "/** Sells \"things\". */"
  methods := [
    { name := "find"
      declaringClass := some "App\\Shop"
      returnType := some (.union [.ofClass "App\\Model\\Price", .builtin "null"])
      parameters := [{ name := "id", type := some (.builtin "int") }] }]

theorem declarations_survive_shop :
    decodeString ClassDecl.decode shopDecl.toDocument.compact = .ok shopDecl :=
  declarations_survive.2.2.2.2.1 shopDecl (by decide)

end TypeHints
