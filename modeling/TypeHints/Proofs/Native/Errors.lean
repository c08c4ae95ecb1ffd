import TypeHints.Native.Decode
import TypeHints.Proofs.Json.Errors
import TypeHints.Proofs.Json.Writing

namespace TypeHints
open Json

/-! ### Native types -/

theorem Kind.precise_decode : Precise Kind.decode := by
  refine precise_enumeration (List.forall_mem_map.mpr fun k _ => ?_)
  exact precisePayload_unit k

theorem ClassKind.precise_decode : Precise ClassKind.decode := by
  refine precise_enumeration (List.forall_mem_map.mpr fun k _ => ?_)
  exact precisePayload_unit k

theorem NamedType.needs_name : NamedType.record.Needs "name" fun s => s.name.isSome = true where
  known := by decide
  set := by
    simp only [NamedType.record, List.forall_mem_cons]
    refine ⟨?_, fun other => absurd other (by decide), fun other => absurd other (by decide),
      List.forall_mem_nil _⟩
    intro _ d s s' set
    obtain ⟨v, -, rfl⟩ := map_eq_ok.mp set
    rfl
  keep := by
    simp only [NamedType.record, List.forall_mem_cons]
    refine ⟨?_, ?_, ?_, List.forall_mem_nil _⟩ <;> intro d s s' given set <;>
      obtain ⟨v, -, rfl⟩ := map_eq_ok.mp set
    · rfl
    · exact given
    · exact given
  lacking := by
    rintro ⟨_ | name, _, _⟩ missing built
    · cases built
      exact ⟨rfl, Bool.false_ne_true⟩
    · cases built

theorem NamedType.precise_decode : Precise NamedType.record.decode := by
  refine Record.precise_decode needs_name ?_ rfl
  simp only [NamedType.record, List.forall_mem_cons]
  exact ⟨fun _ => precise_text.map _, fun _ => precise_bool.option.map _, fun _ => precise_bool.map _,
    List.forall_mem_nil _⟩

theorem NativeType.precise_decodeWithin (room : Nat) : Precise (decodeWithin room) := by
  induction room with
  | zero =>
    intro d e _ failed
    cases failed
    exact .root trivial
  | succ room ih =>
    refine precise_enumeration ?_
    simp only [List.forall_mem_cons]
    exact ⟨(NamedType.precise_decode.map _).newtype, (ih.list.map _).newtype, (ih.list.map _).newtype,
      (precise_text.map _).newtype, List.forall_mem_nil _⟩

theorem NativeType.precise_decode : Precise NativeType.decode := precise_decodeWithin _

/-! ### Members and classes -/

section Named

variable {α β : Type}

structure SparesName (f : Json.Field (Option String × β)) : Prop where
  other : f.name ≠ "name"
  spare : ∀ d s s', f.set d s = .ok s' → s'.1 = s.1
  precise : ∀ s, Precise (f.set · s)

theorem field_sparesName {name : String} {decode : Decoder α}
    {store : α → Option String × β → Option String × β} (other : name ≠ "name")
    (spare : ∀ v s, (store v s).1 = s.1) (precise : Precise decode) :
    SparesName (field name decode store) where
  other := other
  spare := by
    intro d s s' set
    obtain ⟨v, -, rfl⟩ := map_eq_ok.mp set
    exact spare v s
  precise := fun _ => precise.map _

variable {r : Record (Option String × β) α} {others : List (Json.Field (Option String × β))}

theorem needs_name
    (fields : r.fields = field "name" decodeText (fun name draft => (some name, draft.2)) :: others)
    (spare : ∀ f ∈ others, SparesName f) (make : String → β → α)
    (build : ∀ s, r.build s = required "name" s.1 >>= fun name => .ok (make name s.2)) :
    r.Needs "name" fun s => s.1.isSome = true where
  known := by
    rw [Record.names, fields]
    exact List.mem_cons_self
  set := by
    rw [fields, List.forall_mem_cons]
    refine ⟨fun _ d s s' set => ?_, fun f inside same => absurd same (spare f inside).other⟩
    obtain ⟨v, -, rfl⟩ := map_eq_ok.mp set
    rfl
  keep := by
    rw [fields, List.forall_mem_cons]
    refine ⟨fun d s s' _ set => ?_, fun f inside d s s' given set => ?_⟩
    · obtain ⟨v, -, rfl⟩ := map_eq_ok.mp set
      rfl
    · rw [(spare f inside).spare d s s' set]
      exact given
  lacking := by
    rintro ⟨_ | name, rest⟩ missing built <;> rw [build] at built <;> cases built
    exact ⟨rfl, Bool.false_ne_true⟩

theorem precise_named
    (fields : r.fields = field "name" decodeText (fun name draft => (some name, draft.2)) :: others)
    (make : String → β → α)
    (build : ∀ s, r.build s = required "name" s.1 >>= fun name => .ok (make name s.2))
    (lenient : r.strict = false) (spare : ∀ f ∈ others, SparesName f) : Precise r.decode := by
  refine Record.precise_decode (needs_name fields spare make build) ?_ lenient
  rw [fields, List.forall_mem_cons]
  exact ⟨fun _ => precise_text.map _, fun f inside => (spare f inside).precise⟩

end Named

theorem ParameterDecl.precise_decode : Precise ParameterDecl.decode := by
  refine precise_named (r := record) rfl ParameterDecl.mk (fun _ => rfl) rfl ?_
  rw [List.forall_mem_singleton]
  exact field_sparesName (by decide) (fun _ _ => rfl) NativeType.precise_decode.option

theorem PropertyDecl.precise_decode : Precise PropertyDecl.decode := by
  refine precise_named (r := record) rfl (fun name p => { p with name }) (fun _ => rfl) rfl ?_
  simp only [List.forall_mem_cons]
  refine ⟨?_, ?_, ?_, List.forall_mem_nil _⟩ <;>
    refine field_sparesName (by decide) (fun _ _ => rfl) ?_
  · exact precise_text
  · exact precise_text.option
  · exact NativeType.precise_decode.option

theorem FunctionDecl.precise_decode : Precise FunctionDecl.decode := by
  refine precise_named (r := record) rfl (fun name f => { f with name }) (fun _ => rfl) rfl ?_
  simp only [List.forall_mem_cons]
  refine ⟨?_, ?_, ?_, ?_, List.forall_mem_nil _⟩ <;>
    refine field_sparesName (by decide) (fun _ _ => rfl) ?_
  · exact precise_text.option
  · exact precise_text.option
  · exact NativeType.precise_decode.option
  · exact ParameterDecl.precise_decode.list

theorem ClassDecl.precise_decode : Precise ClassDecl.decode := by
  refine precise_named (r := record) rfl (fun name c => { c with name }) (fun _ => rfl) rfl ?_
  simp only [List.forall_mem_cons]
  refine ⟨?_, ?_, ?_, ?_, ?_, ?_, ?_, ?_, ?_, List.forall_mem_nil _⟩ <;>
    refine field_sparesName (by decide) (fun _ _ => rfl) ?_
  · exact ClassKind.precise_decode
  · exact precise_text.option
  · exact precise_text.list
  · exact precise_text.list
  · exact Kind.precise_decode.option
  · exact precise_text.mapping
  · exact precise_text.option
  · exact PropertyDecl.precise_decode.list
  · exact FunctionDecl.precise_decode.list

theorem ClassTable.decode_points {d : Document} {e : DecodeError} (proper : Proper d)
    (failed : ClassTable.decode d = .error e) : Points d e ∨ UnknownMember d e := by
  have needs : ClassTable.record.Needs "builtins" fun _ => True :=
    ⟨by decide, fun _ _ _ _ _ _ _ => trivial, fun _ _ _ _ _ _ _ => trivial,
      fun _ _ built => by cases built⟩
  refine (Record.decode_points needs ?_ proper failed).imp_right And.right
  simp only [ClassTable.record, List.forall_mem_cons]
  exact ⟨fun _ => precise_bool.map _, fun _ => ClassDecl.precise_decode.list.map _,
    List.forall_mem_nil _⟩

/-! ### The main statement -/

/-- If a JSON text is no declaration, the error points at a value of the document that it fits; only a
manifest may also have a member that it does not know. -/
theorem errors_point {text : String} {d : Document} (valid : IsJson text d) :
    (∀ e, decodeString NativeType.decode text = .error e → Points d e) ∧
    (∀ e, decodeString ClassDecl.decode text = .error e → Points d e) ∧
    (∀ e, decodeString FunctionDecl.decode text = .error e → Points d e) ∧
    (∀ e, decodeString ParameterDecl.decode text = .error e → Points d e) ∧
    (∀ e, decodeString PropertyDecl.decode text = .error e → Points d e) ∧
    (∀ e, decodeString ClassTable.decode text = .error e → Points d e ∨ UnknownMember d e) := by
  refine ⟨fun _ => NativeType.precise_decode.decodeString valid,
    fun _ => ClassDecl.precise_decode.decodeString valid,
    fun _ => FunctionDecl.precise_decode.decodeString valid,
    fun _ => ParameterDecl.precise_decode.decodeString valid,
    fun _ => PropertyDecl.precise_decode.decodeString valid, fun e failed => ?_⟩
  rw [decodeString, ofString_of_isJson valid] at failed
  exact (ClassTable.decode_points (valid.proper.within maxNesting) failed).imp
    Points.of_within UnknownMember.of_within

theorem errors_point_unnamed :
    Points (.ofMembers [("name", .null)]) ⟨[.key "name"], .invalidType "null" "a string"⟩ := by
  have plain : Plain (.ofMembers [("name", .null)]) := .object (List.forall_mem_singleton.mpr .null)
  have valid : IsJson "\x7b\"name\":null\x7d" (.ofMembers [("name", .null)]) := plain.compact_isJson
  have failed : decodeString ClassDecl.decode "\x7b\"name\":null\x7d" =
      .error ⟨[.key "name"], .invalidType "null" "a string"⟩ := by
    rw [decodeString, ofString_of_isJson valid]
    rfl
  exact (errors_point valid).2.1 _ failed

/-- The two errors whose last step leads nowhere do occur. -/
theorem errors_point_nowhere :
    (IsJson "\"named\"" (.text "named") ∧
      ∃ e, decodeString NativeType.decode "\"named\"" = .error e ∧
        ∀ v, ¬ Leads (.text "named") e.path v) ∧
    ∃ d, IsJson "\x7b\"\\udead\":null\x7d" d ∧
      ∃ e, decodeString ParameterDecl.decode "\x7b\"\\udead\":null\x7d" = .error e ∧
        ∀ v, ¬ Leads d e.path v := by
  constructor
  · have valid : IsJson "\"named\"" (.text "named") := (Plain.text "named").compact_isJson
    refine ⟨valid, ⟨[.key "named"], .invalidType "unit variant" "newtype variant"⟩, ?_,
      fun v leads => by cases leads⟩
    rw [decodeString, ofString_of_isJson valid]
    rfl
  · have member := @MemberOf.member _ .null [] [] _ isBlanks_nil isContent_halfPair isBlanks_nil
      TextOf.null.padded
    have valid : IsJson "\x7b\"\\udead\":null\x7d" (.object [(.error .loneSurrogate, .null)] none) := by
      have text := (TextOf.object (.last member)).padded
      rw [labelOf_halfPair] at text
      exact text
    refine ⟨_, valid, ⟨[.unknown], .malformed .loneSurrogate⟩, ?_, fun v leads => by cases leads⟩
    rw [decodeString, ofString_of_isJson valid]
    rfl

end TypeHints
