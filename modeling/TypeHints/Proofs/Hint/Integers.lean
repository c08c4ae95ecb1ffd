import Mathlib.Data.Nat.Digits.Defs
import Mathlib.Tactic.IntervalCases
import TypeHints.Proofs.Hint.Writing

/-!
# Integer literals

A literal in either base is one token. It is the integer that its digits denote, wherever that fits
64 bits; only the lowest of these integers has no literal in base sixteen.
-/
namespace TypeHints.Hint
open Text

/-! ### Literals and what they denote -/

def figure (c : Char) : Nat := "0123456789abcdef".toList.idxOf c.toLower

/-- The digits of a literal. Underscores may stand among them. -/
inductive Digits where
  | decimal (first : Char) (more : List Char) (digit : first.isDigit = true)
      (inside : ∀ c ∈ more, isDigitOrGap c = true)
  | hex (marker : Char) (run : List Char) (mark : marker = 'x' ∨ marker = 'X')
      (inside : ∀ c ∈ run, (isHexDigit c || c == '_') = true)
      (some : ∃ c ∈ run, isHexDigit c = true)

namespace Digits

def base : Digits → Nat
  | decimal .. => 10
  | hex .. => 16

def run : Digits → List Char
  | decimal first more .. => first :: more
  | hex _ run .. => run

def text : Digits → List Char
  | decimal first more .. => first :: more
  | hex marker run .. => '0' :: marker :: run

/-- Places count from the right, in powers of the base. -/
def magnitude (d : Digits) : Nat :=
  Nat.ofDigits d.base ((d.run.filter (· != '_')).map figure).reverse

end Digits

def sign (negative : Bool) : List Char := if negative then ['-'] else []

def signed (negative : Bool) (magnitude : Nat) : Int := if negative then -magnitude else magnitude

def IsInt64 (value : Int) : Prop := -2 ^ 63 ≤ value ∧ value < 2 ^ 63

structure Literal where
  negative : Bool
  digits : Digits

namespace Literal

def text (n : Literal) : List Char := sign n.negative ++ n.digits.text

def value (n : Literal) : Int := signed n.negative n.digits.magnitude

/-- The lowest integer of 64 bits, in base sixteen. -/
def IsLowestHex (n : Literal) : Prop := n.digits.base = 16 ∧ n.value = -2 ^ 63

def shown (n : Literal) : List Char :=
  match n.digits with
  | .decimal .. => n.text.filter (· != '_')
  | .hex .. => n.text

end Literal

/-! ### Digits -/

theorem hexValue_eq_figure {c : Char} (h : isHexDigit c = true) : hexValue c = figure c := by
  have code : (48 ≤ c.toNat ∧ c.toNat ≤ 57) ∨ (97 ≤ c.toNat ∧ c.toNat ≤ 102) ∨
      (65 ≤ c.toNat ∧ c.toNat ≤ 70) := by
    simp only [isHexDigit, Char.isDigit, Bool.or_eq_true, Bool.and_eq_true, decide_eq_true_eq, Char.le_def,
      UInt32.le_iff_toNat_le, ge_iff_le] at h
    simpa [or_assoc] using h
  rw [← Char.ofNat_toNat c]
  generalize c.toNat = code at *
  rcases code with ⟨low, high⟩ | ⟨low, high⟩ | ⟨low, high⟩ <;> interval_cases code <;> rfl

theorem numeral_eq_ofDigits {base : Nat} {digits : List Char} (hex : ∀ c ∈ digits, isHexDigit c = true) :
    numeral base digits = Nat.ofDigits base (digits.map figure).reverse := by
  have figures : digits.map figure = digits.map hexValue :=
    List.map_congr_left fun c member => (hexValue_eq_figure (hex c member)).symm
  rw [figures, Nat.ofDigits_eq_foldr, List.foldr_reverse, List.foldl_map]
  simp only [numeral, Nat.cast_id, Nat.add_comm, Nat.mul_comm]

/-! ### Numbers of 64 bits -/

/-- The lexeme is the integer if that may be read, and an error otherwise. -/
def Lexeme.Stands (l : Lexeme) (value : Int) (may : Prop) (shown : List Char) : Prop :=
  (may → ∃ v : Int64, l = .int v ∧ v.toInt = value) ∧
    (¬ may → l = .malformed (.integer (String.ofList shown)))

theorem Lexeme.Stands.congr {l : Lexeme} {value : Int} {may may' : Prop} {shown : List Char}
    (h : l.Stands value may shown) (same : may ↔ may') : l.Stands value may' shown :=
  ⟨fun may => h.1 (same.mpr may), fun mayNot => h.2 (mt same.mp mayNot)⟩

theorem toInt_ofInt {value : Int} (fits : IsInt64 value) : (Int64.ofInt value).toInt = value :=
  Int64.toInt_ofInt_of_le fits.1 fits.2

theorem toInt64?_eq (negative : Bool) (magnitude : Nat) :
    (IsInt64 (signed negative magnitude) →
      toInt64? negative magnitude = some (Int64.ofInt (signed negative magnitude))) ∧
    (¬ IsInt64 (signed negative magnitude) → toInt64? negative magnitude = none) := by
  have bound : Nat.pow 2 63 = 9223372036854775808 := rfl
  unfold IsInt64 signed toInt64?
  cases negative with
  | true =>
    simp only [if_true]
    exact ⟨fun fits => if_pos (by omega), fun strays => if_neg (by omega)⟩
  | false =>
    simp only [Bool.false_eq_true, if_false]
    exact ⟨fun fits => if_pos (by omega), fun strays => if_neg (by omega)⟩

theorem integerLexeme_stands (negative : Bool) (plain : List Char) {digits : List Char}
    (some : digits ≠ []) :
    let value := signed negative (numeral 10 digits)
    (integerLexeme negative plain digits).Stands value (IsInt64 value) plain := by
  intro value
  have ⟨fits, strays⟩ := toInt64?_eq negative (numeral 10 digits)
  unfold integerLexeme
  rw [if_neg (by simpa using some)]
  refine ⟨fun may => ?_, fun mayNot => ?_⟩
  · rw [fits may]
    exact ⟨_, rfl, toInt_ofInt may⟩
  · rw [strays mayNot]

theorem hexLexeme_stands (negative : Bool) (written : List Char) {digits : List Char}
    (some : digits.filter (· != '_') ≠ []) :
    let value := signed negative (numeral 16 (digits.filter (· != '_')))
    (hexLexeme negative written digits).Stands value (IsInt64 value ∧ value ≠ -2 ^ 63) written := by
  intro value
  have bound : Nat.pow 2 63 = 9223372036854775808 := rfl
  have range : IsInt64 value ∧ value ≠ -2 ^ 63 ↔
      ¬ Nat.pow 2 63 ≤ numeral 16 (digits.filter (· != '_')) := by
    unfold IsInt64 value signed
    cases negative with
    | true => simp only [if_true]; omega
    | false => simp only [Bool.false_eq_true, if_false]; omega
  have high : ((digits.filter (· != '_')).isEmpty ||
      decide (Nat.pow 2 63 ≤ numeral 16 (digits.filter (· != '_')))) = true ↔
      ¬ (IsInt64 value ∧ value ≠ -2 ^ 63) := by
    rw [range, not_not]
    simp only [Bool.or_eq_true, List.isEmpty_iff, some, false_or, decide_eq_true_eq]
  unfold hexLexeme
  refine ⟨fun may => ?_, fun mayNot => if_pos (high.mpr mayNot)⟩
  exact ⟨_, if_neg fun out => high.mp out may, toInt_ofInt may.1⟩

/-! ### Literals -/

theorem filter_isDigit {digits : List Char} (inside : ∀ c ∈ digits, isDigitOrGap c = true) :
    digits.filter Char.isDigit = digits.filter (· != '_') := by
  refine List.filter_congr fun c member => ?_
  have here := inside c member
  simp only [isDigitOrGap, Bool.or_eq_true, beq_iff_eq] at here
  rcases here with digit | rfl
  · have other : c ≠ '_' := by
      rintro rfl
      exact absurd digit (by decide)
    simp [digit, other]
  · rfl

theorem isHexDigit_of_plain {digits : List Char}
    (inside : ∀ c ∈ digits, (isHexDigit c || c == '_') = true) :
    ∀ c ∈ digits.filter (· != '_'), isHexDigit c = true := by
  intro c member
  obtain ⟨member, plain⟩ := List.mem_filter.mp member
  have here := inside c member
  simp only [bne_iff_ne] at plain
  simpa [plain] using here

theorem sign_cases (negative : Bool) : sign negative = ['-'] ∨ sign negative = [] := by
  cases negative <;> decide

theorem sign_eq_minus (negative : Bool) : decide (sign negative = ['-']) = negative := by
  cases negative <;> decide

def Literal.IsScanned (n : Literal) : Prop :=
  ∃ l, numberLexeme n.text = (l, n.text.length) ∧
    l.Stands n.value (IsInt64 n.value ∧ ¬ n.IsLowestHex) n.shown

theorem isScanned_decimal (negative : Bool) {first : Char} {more : List Char}
    (digit : first.isDigit = true) (inside : ∀ c ∈ more, isDigitOrGap c = true) :
    Literal.IsScanned ⟨negative, .decimal first more digit inside⟩ := by
  have all : ∀ c ∈ first :: more, isDigitOrGap c = true :=
    List.forall_mem_cons.mpr ⟨by simp [isDigitOrGap, digit], inside⟩
  have hex : ∀ c ∈ first :: more, (isHexDigit c || c == '_') = true := by
    intro c member
    have here := all c member
    simp only [isDigitOrGap, Bool.or_eq_true] at here
    simp only [isHexDigit, Bool.or_eq_true]
    exact here.imp_left fun digit => .inl (.inl digit)
  have some : (first :: more).filter Char.isDigit ≠ [] := by simp [digit]
  have plain := filter_isDigit all
  have read := numberLexeme_digits (sign_cases negative) all
  have stands := integerLexeme_stands negative ((sign negative ++ first :: more).filter (· != '_')) some
  rw [sign_eq_minus] at read
  refine ⟨_, read, ?_⟩
  rw [plain, numeral_eq_ofDigits (isHexDigit_of_plain hex)] at stands
  rw [plain]
  have base : (10 : Nat) ≠ 16 := by decide
  exact stands.congr ⟨fun fits => ⟨fits, fun lowest => base lowest.1⟩, And.left⟩

theorem isScanned_hex (negative : Bool) {marker : Char} {run : List Char}
    (mark : marker = 'x' ∨ marker = 'X') (inside : ∀ c ∈ run, (isHexDigit c || c == '_') = true)
    (some : ∃ c ∈ run, isHexDigit c = true) :
    Literal.IsScanned ⟨negative, .hex marker run mark inside some⟩ := by
  obtain ⟨c, member, digit⟩ := some
  have some : run.filter (· != '_') ≠ [] := by
    refine List.ne_nil_of_mem (List.mem_filter.mpr ⟨member, ?_⟩)
    rw [bne_iff_ne]
    rintro rfl
    exact absurd digit (by decide)
  have stop : Barred (fun c => isHexDigit c || c == '_') [] := barred_nil _
  have read := numberLexeme_hex (sign_cases negative) mark inside stop
  rw [List.append_nil, sign_eq_minus] at read
  have stands := hexLexeme_stands negative (sign negative ++ '0' :: marker :: run) some
  rw [numeral_eq_ofDigits (isHexDigit_of_plain inside)] at stands
  refine ⟨_, read, ?_⟩
  refine stands.congr (and_congr_right fun _ => not_congr ?_)
  exact ⟨fun lowest => ⟨rfl, lowest⟩, And.right⟩

theorem Literal.isScanned (n : Literal) : n.IsScanned := by
  obtain ⟨negative, digits⟩ := n
  cases digits with
  | decimal first more digit inside => exact isScanned_decimal negative digit inside
  | hex marker run mark inside some => exact isScanned_hex negative mark inside some

theorem Literal.begins (n : Literal) : ∃ c rest, n.text = c :: rest ∧ beginsNumber c rest = true := by
  obtain ⟨negative, digits⟩ := n
  cases negative with
  | true =>
    cases digits with
    | decimal first more digit => exact ⟨'-', first :: more, rfl, by simp [beginsNumber, digit]⟩
    | hex marker run => exact ⟨'-', '0' :: marker :: run, rfl, by simp [beginsNumber]⟩
  | false =>
    cases digits with
    | decimal first more digit => exact ⟨first, more, rfl, by simp [beginsNumber, digit]⟩
    | hex marker run => exact ⟨'0', marker :: run, rfl, by simp [beginsNumber]⟩

theorem tokens_number {c : Char} {rest : List Char} {l : Lexeme} (begins : beginsNumber c rest = true)
    (read : numberLexeme (c :: rest) = (l, (c :: rest).length)) :
    tokens (String.ofList (c :: rest)) =
      [⟨l, 0, c :: rest⟩, ⟨.finish, byteSize (c :: rest), []⟩] := by
  have whole := tokensFrom_head (visible_of_beginsNumber begins) (scan_number begins read) 0
  have nothing : ([] : List Char).dropWhile isBlank = [] := rfl
  rw [List.take_length, List.drop_length, Nat.zero_add, tokensFrom_blank nothing] at whole
  rw [tokens, String.toList_ofList, whole]
  rfl

/-- A literal is one token. It is the integer of its digits if that fits and is not the lowest one in
base sixteen, and an error that shows the literal otherwise. -/
theorem tokens_literal (n : Literal) :
    ∃ l, tokens (String.ofList n.text) = [⟨l, 0, n.text⟩, ⟨.finish, byteSize n.text, []⟩] ∧
      (IsInt64 n.value ∧ ¬ n.IsLowestHex → ∃ v : Int64, l = .int v ∧ v.toInt = n.value) ∧
      (¬ (IsInt64 n.value ∧ ¬ n.IsLowestHex) → l = .malformed (.integer (String.ofList n.shown))) := by
  obtain ⟨l, read, stands⟩ := n.isScanned
  obtain ⟨c, rest, text, begins⟩ := n.begins
  rw [text] at read
  refine ⟨l, ?_, stands⟩
  rw [text]
  exact tokens_number begins read

def lowestHex : Literal :=
  ⟨true, .hex 'x' "8000000000000000".toList (.inl rfl) (List.all_eq_true.mp rfl)
    (List.any_eq_true.mp rfl)⟩

/-- In base sixteen the magnitude has to fit by itself, so the lowest integer is refused. In base ten it
is read. -/
theorem lowest_refused :
    lowestHex.text = "-0x8000000000000000".toList ∧ lowestHex.value = -2 ^ 63 ∧
      IsInt64 lowestHex.value ∧
      tokens "-0x8000000000000000" = [⟨.malformed (.integer "-0x8000000000000000"), 0,
        "-0x8000000000000000".toList⟩, ⟨.finish, 19, []⟩] ∧
      tokens "-9223372036854775808" =
        [⟨.int Int64.minValue, 0, "-9223372036854775808".toList⟩, ⟨.finish, 20, []⟩] := by
  have value : lowestHex.value = -2 ^ 63 := by decide +kernel
  have hex : numberLexeme ('-' :: "0x8000000000000000".toList) =
      (.malformed (.integer "-0x8000000000000000"), 19) := by decide +kernel
  have decimal : numberLexeme ('-' :: "9223372036854775808".toList) = (.int Int64.minValue, 20) := by
    decide +kernel
  refine ⟨rfl, value, ?_, tokens_number (by decide) hex, tokens_number (by decide) decimal⟩
  rw [value]
  unfold IsInt64
  decide

end TypeHints.Hint
