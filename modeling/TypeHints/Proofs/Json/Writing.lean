import TypeHints.Json.Decode
import TypeHints.Json.Print
import TypeHints.Proofs.Json.Reading

namespace TypeHints.Json

/-! ### Strings -/

theorem hexDigit_hexDigits {n : Nat} (small : n < 16) :
    hexDigit? (hexDigits.getD n '0') = some n := by
  have all : ∀ n : Fin 16, hexDigit? (hexDigits.getD n.val '0') = some n.val := by decide
  exact all ⟨n, small⟩

theorem hexUnit_control {n : Nat} (small : n < 0x20) (rest : List Char) :
    hexUnit ('0' :: '0' :: hexDigits.getD (n / 16) '0' :: hexDigits.getD (n % 16) '0' :: rest) =
      .ok n := by
  have zero : hexDigit? '0' = some 0 := by decide
  have high : hexDigit? (hexDigits.getD (n / 16) '0') = some (n / 16) :=
    hexDigit_hexDigits (by omega)
  have low : hexDigit? (hexDigits.getD (n % 16) '0') = some (n % 16) :=
    hexDigit_hexDigits (by omega)
  simp only [hexUnit, zero, high, low, Except.ok.injEq]
  omega

theorem escapeChar_cases (c : Char) :
    (∃ e ∈ simpleEscapes, escapeChar c = ['\\', e] ∧ ∀ rest, readEscape (e :: rest) = .ok (c, 1)) ∨
      (c.toNat < 0x20 ∧ escapeChar c =
        ['\\', 'u', '0', '0', hexDigits.getD (c.toNat / 16) '0', hexDigits.getD (c.toNat % 16) '0']) ∨
      (0x20 ≤ c.toNat ∧ c ≠ '"' ∧ c ≠ '\\' ∧ escapeChar c = [c]) := by
  by_cases simple : c ∈ ['"', '\\', '\n', '\r', '\t', '\x08', '\x0c']
  · simp only [List.mem_cons, List.not_mem_nil, or_false] at simple
    rcases simple with rfl | rfl | rfl | rfl | rfl | rfl | rfl <;>
      exact .inl ⟨_, by decide, rfl, fun _ => rfl⟩
  · simp only [List.mem_cons, List.not_mem_nil, or_false, not_or] at simple
    obtain ⟨noQuote, noBackslash, others⟩ := simple
    by_cases control : c.toNat < 0x20
    · exact .inr (.inl ⟨control, by simp only [escapeChar, noQuote, noBackslash, others, control,
        if_false, if_true]⟩)
    · exact .inr (.inr ⟨Nat.not_lt.mp control, noQuote, noBackslash, by
        simp only [escapeChar, noQuote, noBackslash, others, control, if_false]⟩)

theorem isContent_escapeChar (c : Char) {cs : List Char} (h : IsContent cs) :
    IsContent (escapeChar c ++ cs) := by
  obtain ⟨e, known, same, -⟩ | ⟨control, same⟩ | ⟨visible, noQuote, noBackslash, same⟩ :=
    escapeChar_cases c
  · rw [same]
    exact .escape known h
  · rw [same]
    refine @IsContent.unicode ['0', '0', _, _] cs rfl ?_ h
    intro d member
    simp only [List.mem_cons, List.not_mem_nil, or_false] at member
    rcases member with rfl | rfl | rfl | rfl
    · decide
    · decide
    · rw [hexDigit_hexDigits (by omega)]
      rfl
    · rw [hexDigit_hexDigits (by omega)]
      rfl
  · rw [same]
    exact .plain visible noQuote noBackslash h

theorem readString_escapeChar (c : Char) (rest : List Char) :
    readString (escapeChar c ++ rest) = (readString rest).map (c :: ·) := by
  obtain ⟨e, -, same, read⟩ | ⟨control, same⟩ | ⟨visible, noQuote, noBackslash, same⟩ :=
    escapeChar_cases c
  · rw [same, List.cons_append, readString]
    simp [read]
  · have escape : readEscape ('u' :: '0' :: '0' :: hexDigits.getD (c.toNat / 16) '0' ::
        hexDigits.getD (c.toNat % 16) '0' :: rest) = .ok (c, 5) := by
      have notLow : (decide (0xDC00 ≤ c.toNat) && decide (c.toNat ≤ 0xDFFF)) = false := by
        simp; omega
      have single : (decide (c.toNat < 0xD800) || decide (0xDBFF < c.toNat)) = true := by
        simp; omega
      simp only [readEscape, hexUnit_control control, bind, Except.bind, notLow, single,
        Bool.false_eq_true, if_false, if_true, Char.ofNat_toNat]
    rw [same, List.cons_append, readString]
    simp only [Char.reduceEq, if_false, if_true, List.cons_append, List.nil_append, escape,
      List.drop_succ_cons, List.drop_zero]
  · rw [same, List.cons_append, readString]
    simp only [noQuote, noBackslash, Nat.not_lt.mpr visible, if_false, List.nil_append]

theorem isContent_escaped (cs : List Char) : IsContent (cs.flatMap escapeChar) := by
  induction cs with
  | nil => exact .nil
  | cons c cs ih => exact isContent_escapeChar c ih

theorem readString_escaped (cs rest : List Char) :
    readString (cs.flatMap escapeChar ++ '"' :: rest) = .ok cs := by
  induction cs with
  | nil => simp [readString]
  | cons c cs ih => rw [List.flatMap_cons, List.append_assoc, readString_escapeChar, ih]; rfl

theorem labelOf_escaped (s : String) : labelOf (s.toList.flatMap escapeChar) = .ok s := by
  rw [labelOf, readString_escaped]
  simp [Except.map]

/-! ### Documents -/

inductive Plain : Document → Prop
  | null : Plain .null
  | bool (value : Bool) : Plain (.bool value)
  | text (s : String) : Plain (.text s)
  | list {items : List Document} (plain : ∀ d ∈ items, Plain d) : Plain (.ofList items)
  | object {members : List (String × Document)} (plain : ∀ m ∈ members, Plain m.2) :
      Plain (.ofMembers members)

theorem TextOf.padded {d : Document} {cs : List Char} (h : TextOf d cs) : PaddedOf d cs := by
  simpa using @PaddedOf.padded d [] cs [] isBlanks_nil h isBlanks_nil

theorem textOf_quote (s : String) : TextOf (.text s) (quote s).toList := by
  have text := TextOf.text (isContent_escaped s.toList)
  rw [labelOf_escaped] at text
  simpa [quote, Label.document] using text

theorem itemsOf_compactItems {d : Document} {items : List Document}
    (each : ∀ d' ∈ d :: items, TextOf d' d'.compact.toList) :
    ItemsOf (d :: items) (separated "," (compactItems (d :: items))).toList := by
  induction items generalizing d with
  | nil => simpa [separated, compactItems] using ItemsOf.last (each d List.mem_cons_self).padded
  | cons e items ih =>
    have rest := ih fun d' member => each d' (List.mem_cons_of_mem _ member)
    have whole := ItemsOf.cons (each d List.mem_cons_self).padded rest
    simpa [separated, compactItems] using whole

theorem memberOf_compact (name : String) {d : Document} (h : TextOf d d.compact.toList) :
    MemberOf (.ok name, d) (labelText (.ok name) ++ ":" ++ d.compact).toList := by
  have member := @MemberOf.member _ d [] [] _ isBlanks_nil (isContent_escaped name.toList) isBlanks_nil
    h.padded
  rw [labelOf_escaped] at member
  simpa [labelText, quote] using member

theorem membersOf_compactMembers {m : Label × Document} {members : List (Label × Document)}
    (each : ∀ m' ∈ m :: members, MemberOf m' (labelText m'.1 ++ ":" ++ m'.2.compact).toList) :
    MembersOf (m :: members) (separated "," (compactMembers (m :: members))).toList := by
  induction members generalizing m with
  | nil => simpa [separated, compactMembers] using MembersOf.last (each m List.mem_cons_self)
  | cons n members ih =>
    have rest := ih fun m' member => each m' (List.mem_cons_of_mem _ member)
    have whole := MembersOf.cons (each m List.mem_cons_self) rest
    simpa [separated, compactMembers] using whole

theorem textOf_list {items : List Document} (each : ∀ d ∈ items, TextOf d d.compact.toList) :
    TextOf (.list items none) (Document.list items none).compact.toList := by
  cases items with
  | nil => exact @TextOf.noItems [] isBlanks_nil
  | cons d items => simpa [Document.compact] using TextOf.list (itemsOf_compactItems each)

theorem textOf_object {members : List (Label × Document)}
    (each : ∀ m ∈ members, MemberOf m (labelText m.1 ++ ":" ++ m.2.compact).toList) :
    TextOf (.object members none) (Document.object members none).compact.toList := by
  cases members with
  | nil => exact @TextOf.noMembers [] isBlanks_nil
  | cons m members => simpa [Document.compact] using TextOf.object (membersOf_compactMembers each)

namespace Plain

theorem ofText? (s : Option String) : Plain (.ofText? s) := by
  cases s with
  | none => exact .null
  | some s => exact .text s

theorem ofMap {α : Type} {encode : α → Document} {vs : List α} (each : ∀ v ∈ vs, Plain (encode v)) :
    Plain (.ofList (vs.map encode)) :=
  .list (List.forall_mem_map.mpr each)

theorem memberFault?_eq_none {d : Document} (h : Plain d) : memberFault? d = none := by
  cases h <;> rfl

theorem textOf_compact {d : Document} (h : Plain d) : TextOf d d.compact.toList := by
  induction h with
  | null => exact .null
  | bool value => cases value <;> exact .bool _
  | text s => exact textOf_quote s
  | list plain ih => exact textOf_list ih
  | object plain ih =>
    refine textOf_object fun m member => ?_
    obtain ⟨⟨name, d⟩, given, rfl⟩ := List.mem_map.mp member
    exact memberOf_compact name (ih _ given)

theorem compact_isJson {d : Document} (h : Plain d) : IsJson d.compact d := h.textOf_compact.padded

theorem ofString_compact {d : Document} (h : Plain d) : Document.ofString d.compact = d :=
  ofString_of_isJson h.compact_isJson

end Plain

end TypeHints.Json
