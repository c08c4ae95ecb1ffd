import TypeHints.Proofs.Except
import TypeHints.Proofs.Json.Grammar
import TypeHints.Proofs.Text.Runs

namespace TypeHints.Json
open Text

/-! ### Blanks -/

theorem skipBlanks_append {blanks : List Char} (blank : IsBlanks blanks) (cs : List Char) :
    skipBlanks (blanks ++ cs) = skipBlanks cs := by
  rw [skipBlanks, List.dropWhile_append_of_pos blank]
  rfl

theorem skipBlanks_visible {c : Char} (visible : isJsonBlank c = false) (cs : List Char) :
    skipBlanks (c :: cs) = c :: cs := by
  simp [skipBlanks, visible]

/-! ### Strings -/

theorem hexUnit_digits {digits : List Char} (four : digits.length = 4)
    (hex : ∀ c ∈ digits, (hexDigit? c).isSome = true) :
    ∃ unit, ∀ rest, hexUnit (digits ++ rest) = .ok unit := by
  match digits, four with
  | [a, b, c, d], _ =>
    have value {x : Char} (member : x ∈ [a, b, c, d]) : ∃ v, hexDigit? x = some v :=
      Option.isSome_iff_exists.mp (hex x member)
    obtain ⟨va, ha⟩ := value (x := a) (by simp)
    obtain ⟨vb, hb⟩ := value (x := b) (by simp)
    obtain ⟨vc, hc⟩ := value (x := c) (by simp)
    obtain ⟨vd, hd⟩ := value (x := d) (by simp)
    exact ⟨_, fun rest => by simp only [List.cons_append, List.nil_append, hexUnit, ha, hb, hc, hd]; rfl⟩

theorem passEscape_simple {c : Char} (known : c ∈ simpleEscapes) (rest : List Char) :
    passEscape (c :: rest) = .ok 1 := by
  simp only [simpleEscapes, List.mem_cons, List.not_mem_nil, or_false] at known
  rcases known with rfl | rfl | rfl | rfl | rfl | rfl | rfl | rfl <;> rfl

theorem passString_content {cs : List Char} (h : IsContent cs) (taken : Nat) (rest : List Char) :
    passString taken (cs ++ '"' :: rest) = .ok (taken + cs.length + 1) := by
  induction h generalizing taken with
  | nil =>
    rw [List.nil_append, passString]
    simp
  | plain visible noQuote noBackslash _ ih =>
    rw [List.cons_append, passString]
    simp only [noQuote, noBackslash, Nat.not_lt.mpr visible, if_false, ih, List.length_cons,
      Except.ok.injEq]
    omega
  | escape known _ ih =>
    rw [List.cons_append, List.cons_append, passString]
    simp only [passEscape_simple known, List.drop_succ_cons, List.drop_zero, ih, List.length_cons,
      Char.reduceEq, if_false, if_true, Except.ok.injEq]
    omega
  | @unicode digits cs four hex _ ih =>
    obtain ⟨unit, read⟩ := hexUnit_digits four hex
    have passes : passEscape ('u' :: (digits ++ (cs ++ '"' :: rest))) = .ok 5 := by
      simp [passEscape, read, Except.map]
    rw [List.cons_append, List.cons_append, List.append_assoc, passString]
    simp only [passes, List.drop_succ_cons, List.drop_left' four, ih, List.length_cons,
      List.length_append, four, Char.reduceEq, if_false, if_true, Except.ok.injEq]
    omega

theorem readEscape_simple {c : Char} (known : c ∈ simpleEscapes) :
    ∃ e, ∀ rest, readEscape (c :: rest) = .ok (e, 1) := by
  simp only [simpleEscapes, List.mem_cons, List.not_mem_nil, or_false] at known
  rcases known with rfl | rfl | rfl | rfl | rfl | rfl | rfl | rfl <;> exact ⟨_, fun _ => rfl⟩

/-- The first half of a surrogate pair needs the second one right behind it. -/
theorem readEscape_high {digits : List Char} (four : digits.length = 4) {unit : Nat}
    (read : ∀ rest, hexUnit (digits ++ rest) = .ok unit) (high : 0xD800 ≤ unit ∧ unit ≤ 0xDBFF)
    {cs : List Char} (h : IsContent cs) :
    (∃ fault ∈ surrogateFaults,
      ∀ rest, readEscape ('u' :: (digits ++ (cs ++ '"' :: rest))) = .error fault) ∨
      ∃ e more, IsContent more ∧ more.length < cs.length ∧ ∀ rest,
        readEscape ('u' :: (digits ++ (cs ++ '"' :: rest))) = .ok (e, 11) ∧
          ('u' :: (digits ++ (cs ++ '"' :: rest))).drop 11 = more ++ '"' :: rest := by
  have notLow : (decide (0xDC00 ≤ unit) && decide (unit ≤ 0xDFFF)) = false := by
    simp; omega
  have paired : (decide (unit < 0xD800) || decide (0xDBFF < unit)) = false := by
    simp; omega
  cases h with
  | nil =>
    refine .inl ⟨.unfinishedSurrogate, by decide, fun rest => ?_⟩
    simp only [readEscape, read, List.drop_left' four, bind, Except.bind, notLow, paired]
    split <;> simp_all
  | plain _ _ noBackslash _ =>
    refine .inl ⟨.unfinishedSurrogate, by decide, fun rest => ?_⟩
    simp only [readEscape, read, List.drop_left' four, bind, Except.bind, notLow, paired]
    split <;> simp_all
  | escape known _ =>
    refine .inl ⟨.unfinishedSurrogate, by decide, fun rest => ?_⟩
    simp only [readEscape, read, List.drop_left' four, bind, Except.bind, notLow, paired,
      Bool.false_eq_true, if_false]
    split <;> simp_all [simpleEscapes]
  | @unicode digits' cs four' hex' more =>
    obtain ⟨low, read'⟩ := hexUnit_digits four' hex'
    have behind (rest : List Char) :
        ('u' :: (digits ++ ('\\' :: 'u' :: (digits' ++ cs) ++ '"' :: rest))).drop 11 =
          cs ++ '"' :: rest := by
      have whole : (digits ++ '\\' :: 'u' :: digits').length = 10 := by simp [four, four']
      simpa using (List.drop_left' whole : (_ ++ (cs ++ '"' :: rest)).drop 10 = cs ++ '"' :: rest)
    by_cases isLow : (decide (low < 0xDC00) || decide (0xDFFF < low)) = true
    · refine .inl ⟨.loneSurrogate, by decide, fun rest => ?_⟩
      simp only [readEscape, read, List.drop_left' four, notLow, paired, List.cons_append,
        List.append_assoc, read', isLow, if_true, bind, Except.bind, Bool.false_eq_true, if_false]
    · refine .inr ⟨Char.ofNat ((unit - 0xD800) * 1024 + (low - 0xDC00) + 0x10000), cs, more,
        by simp; omega, fun rest => ⟨?_, behind rest⟩⟩
      simp only [readEscape, read, List.drop_left' four, notLow, paired, List.cons_append,
        List.append_assoc, read', isLow, bind, Except.bind, Bool.false_eq_true, if_false]

/-- What stands behind the backslash of a content is decided before the closing quote: it is a fault,
or a character with a content left behind it. -/
theorem readEscape_content {cs : List Char} (h : IsContent ('\\' :: cs)) :
    (∃ fault ∈ surrogateFaults, ∀ rest, readEscape (cs ++ '"' :: rest) = .error fault) ∨
      ∃ e n more, IsContent more ∧ more.length < cs.length ∧ ∀ rest,
        readEscape (cs ++ '"' :: rest) = .ok (e, n) ∧
          (cs ++ '"' :: rest).drop n = more ++ '"' :: rest := by
  cases h with
  | plain _ _ noBackslash _ => exact absurd rfl noBackslash
  | @escape c cs known more =>
    obtain ⟨e, read⟩ := readEscape_simple known
    exact .inr ⟨e, 1, cs, more, by simp, fun rest => ⟨read _, rfl⟩⟩
  | @unicode digits cs four hex more =>
    obtain ⟨unit, read⟩ := hexUnit_digits four hex
    simp only [List.cons_append, List.append_assoc]
    by_cases isLow : (decide (0xDC00 ≤ unit) && decide (unit ≤ 0xDFFF)) = true
    · refine .inl ⟨.loneSurrogate, by decide, fun rest => ?_⟩
      simp only [readEscape, read, isLow, bind, Except.bind, if_true]
    · by_cases alone : (decide (unit < 0xD800) || decide (0xDBFF < unit)) = true
      · have shorter : cs.length < ('u' :: (digits ++ cs)).length := by
          simp only [List.length_cons, List.length_append]
          omega
        refine .inr ⟨Char.ofNat unit, 5, cs, more, shorter, fun rest => ⟨?_, List.drop_left' four⟩⟩
        simp only [readEscape, read, isLow, alone, bind, Except.bind, if_true, if_false,
          Bool.false_eq_true]
      · have high : 0xD800 ≤ unit ∧ unit ≤ 0xDBFF := by
          simp only [Bool.or_eq_true, decide_eq_true_eq, not_or, Nat.not_lt] at alone
          exact alone
        refine (readEscape_high four read high more).imp id ?_
        rintro ⟨e, more, valid, shorter, reads⟩
        exact ⟨e, 11, more, valid, by simp; omega, reads⟩

theorem readString_content {cs : List Char} (h : IsContent cs) :
    ∃ read : Except Fault (List Char), (∀ rest, readString (cs ++ '"' :: rest) = read) ∧
      ∀ fault, read = .error fault → fault ∈ surrogateFaults := by
  induction length : cs.length using Nat.strongRecOn generalizing cs with
  | ind n ih =>
    subst length
    cases cs with
    | nil => exact ⟨.ok [], fun rest => by simp [readString], nofun⟩
    | cons c cs =>
      by_cases backslash : c = '\\'
      · subst backslash
        obtain ⟨fault, surrogate, read⟩ | ⟨e, n, more, valid, shorter, read⟩ := readEscape_content h
        · refine ⟨.error fault, fun rest => ?_, fun _ same => by cases same; exact surrogate⟩
          rw [List.cons_append, readString]
          simp only [Char.reduceEq, if_false, if_true, read]
        · obtain ⟨others, decoded, faults⟩ := ih _ (Nat.lt_succ_of_lt shorter) valid rfl
          refine ⟨others.map (e :: ·), fun rest => ?_, fun fault same => faults fault ?_⟩
          · rw [List.cons_append, readString]
            simp only [Char.reduceEq, if_false, if_true, (read _).1, (read _).2, decoded]
          · cases others <;> cases same
            rfl
      · cases h with
        | plain visible noQuote _ more =>
          obtain ⟨others, decoded, faults⟩ := ih _ (Nat.lt_succ_self _) more rfl
          refine ⟨others.map (c :: ·), fun rest => ?_, fun fault same => faults fault ?_⟩
          · rw [List.cons_append, readString]
            simp only [noQuote, backslash, Nat.not_lt.mpr visible, if_false, decoded]
          · cases others <;> cases same
            rfl
        | escape => exact absurd rfl backslash
        | unicode => exact absurd rfl backslash

theorem labelOf_error {cs : List Char} (h : IsContent cs) {fault : Fault}
    (undecodable : labelOf cs = .error fault) : fault ∈ surrogateFaults := by
  obtain ⟨read, decoded, faults⟩ := readString_content h
  rw [labelOf, decoded] at undecodable
  cases read <;> cases undecodable
  exact faults fault rfl

def halfPair : List Char := ['\\', 'u', 'd', 'e', 'a', 'd']

theorem isContent_halfPair : IsContent halfPair :=
  @IsContent.unicode ['d', 'e', 'a', 'd'] [] rfl (List.all_eq_true.mp rfl) .nil

theorem labelOf_halfPair : labelOf halfPair = .error .loneSurrogate := by
  have escape : readEscape ['u', 'd', 'e', 'a', 'd', '"'] = .error .loneSurrogate := rfl
  change (readString ['\\', 'u', 'd', 'e', 'a', 'd', '"']).map String.ofList = _
  rw [readString]
  simp only [Char.reduceEq, if_false, if_true, escape]
  rfl

theorem readLabel_content {cs : List Char} (h : IsContent cs) (rest : List Char) :
    readLabel (cs ++ '"' :: rest) = (labelOf cs, .ok (cs.length + 1)) := by
  obtain ⟨read, decoded, -⟩ := readString_content h
  rw [readLabel, labelOf, decoded, decoded, passString_content h, Nat.zero_add]

/-! ### Numbers -/

def readExponent (negative : Bool) (whole fraction rest : List Char) (taken : Nat)
    (otherwise : Scalar) : Scalar :=
  if rest.head? = some 'e' || rest.head? = some 'E' then
    let signed := rest.tail.head? = some '+' || rest.tail.head? = some '-'
    let down := rest.tail.head? = some '-'
    let rest := if signed then rest.drop 2 else rest.drop 1
    let exponent := rest.takeWhile Char.isDigit
    if exponent.isEmpty then cutNumber rest
    else
      .ofFloat (fractionalNumber negative whole fraction down exponent)
        (taken + (if signed then 2 else 1) + exponent.length)
  else otherwise

def readDecimals (negative : Bool) (whole rest : List Char) (taken : Nat) : Scalar :=
  let pointed := rest.head? = some '.'
  let fraction := if pointed then rest.tail.takeWhile Char.isDigit else []
  let rest := if pointed then rest.drop (fraction.length + 1) else rest
  let taken := if pointed then taken + fraction.length + 1 else taken
  if pointed && fraction.isEmpty then cutNumber rest
  else
    readExponent negative whole fraction rest taken
      (if pointed then .ofFloat (fractionalNumber negative whole fraction false []) taken
      else wholeNumber negative whole taken)

theorem readNumber_whole (negative : Bool) {whole rest : List Char} (digits : IsDigits whole)
    (noZero : whole.head? = some '0' → whole = ['0']) (ends : Barred Char.isDigit rest) :
    readNumber ((if negative then ['-'] else []) ++ (whole ++ rest)) =
      readDecimals negative whole rest ((if negative then 1 else 0) + whole.length) := by
  obtain ⟨c, cs, rfl⟩ : ∃ c cs, whole = c :: cs := List.exists_cons_of_ne_nil digits.1
  have noSign : c ≠ '-' := by
    rintro rfl
    simpa using digits.2 '-' List.mem_cons_self
  have sign :
      (((if negative then ['-'] else []) ++ (c :: cs ++ rest)).head? = some '-') =
        (negative = true) := by
    cases negative <;> simp [noSign]
  have body :
      (if negative = true then ((if negative then ['-'] else []) ++ (c :: cs ++ rest)).tail
        else ((if negative then ['-'] else []) ++ (c :: cs ++ rest))) = c :: cs ++ rest := by
    cases negative <;> simp
  have leading :
      (if (c :: cs ++ rest).head? = some '0' then ['0']
        else (c :: cs ++ rest).takeWhile Char.isDigit) = c :: cs := by
    split
    next zero => exact (noZero zero).symm
    next => exact takeWhile_append_barred digits.2 ends
  have behind : rest.head?.any Char.isDigit = false := by
    cases rest with
    | nil => rfl
    | cons d rest => simpa using barred_cons.mp ends
  simp only [readNumber, sign, body, leading, List.drop_left, behind, List.isEmpty_cons,
    Bool.and_false, Bool.false_eq_true, if_false, readDecimals, readExponent, Bool.decide_eq_true]

theorem readDecimals_fraction (negative : Bool) (whole : List Char) {fraction : Option (List Char)}
    (valid : ∀ digits ∈ fraction, IsDigits digits) {rest : List Char}
    (ends : Barred Char.isDigit rest) (noPoint : rest.head? ≠ some '.') (taken : Nat) :
    readDecimals negative whole (Numeral.fractionText fraction ++ rest) taken =
      readExponent negative whole (fraction.getD []) rest
        (taken + (Numeral.fractionText fraction).length)
        (match fraction with
        | some digits =>
          .ofFloat (fractionalNumber negative whole digits false [])
            (taken + (Numeral.fractionText fraction).length)
        | none => wholeNumber negative whole taken) := by
  cases fraction with
  | none => simp [readDecimals, Numeral.fractionText, noPoint]
  | some digits =>
    obtain ⟨nonempty, all⟩ := valid digits rfl
    have run : (digits ++ rest).takeWhile Char.isDigit = digits :=
      takeWhile_append_barred all ends
    simp [readDecimals, Numeral.fractionText, run, nonempty, Nat.add_assoc]

theorem readExponent_text (negative : Bool) (whole fraction : List Char) {e : Exponent}
    (valid : e.IsValid) {rest : List Char} (ends : Barred Char.isDigit rest) (taken : Nat)
    (otherwise : Scalar) :
    readExponent negative whole fraction (e.text ++ rest) taken otherwise =
      .ofFloat (fractionalNumber negative whole fraction (e.sign = some '-') e.digits)
        (taken + e.text.length) := by
  obtain ⟨letter, sign, digits⟩ := e
  obtain ⟨isLetter, isSign, nonempty, all⟩ := valid
  simp only at isLetter isSign nonempty all
  obtain ⟨d, ds, rfl⟩ : ∃ d ds, digits = d :: ds := List.exists_cons_of_ne_nil nonempty
  have isDigit : d.isDigit = true := all d List.mem_cons_self
  have run : (ds ++ rest).takeWhile Char.isDigit = ds :=
    takeWhile_append_barred (fun c member => all c (List.mem_cons_of_mem _ member)) ends
  cases sign with
  | none =>
    have noPlus : d ≠ '+' := by rintro rfl; simp at isDigit
    have noMinus : d ≠ '-' := by rintro rfl; simp at isDigit
    simp [readExponent, Exponent.text, isLetter, noPlus, noMinus, isDigit, run, Nat.add_comm,
      Nat.add_left_comm]
  | some s =>
    rcases isSign s rfl with rfl | rfl <;>
      simp [readExponent, Exponent.text, isLetter, isDigit, run, Nat.add_comm, Nat.add_left_comm]

def lengthens (c : Char) : Bool := c.isDigit || c == '.' || c == 'e' || c == 'E'

theorem barred_exponent {exponent : Option Exponent} (valid : ∀ e ∈ exponent, e.IsValid)
    {rest : List Char} (ends : Barred lengthens rest) :
    Barred (fun c => c.isDigit || c == '.') (Numeral.exponentText exponent ++ rest) := by
  cases exponent with
  | none => exact ends.imp fun c inside => by simp_all [lengthens]
  | some e =>
    rcases (valid e rfl).letter with letter | letter <;>
      simp [Numeral.exponentText, Exponent.text, letter]

theorem readNumber_text {n : Numeral} (valid : n.IsValid) {rest : List Char}
    (ends : Barred lengthens rest) : readNumber (n.text ++ rest) = n.scalar := by
  obtain ⟨negative, whole, fraction, exponent⟩ := n
  obtain ⟨isWhole, noZero, isFraction, isExponent⟩ := valid
  have behind := barred_exponent isExponent ends
  have noDigit : Barred Char.isDigit (Numeral.exponentText exponent ++ rest) :=
    behind.imp fun c inside => by simp [inside]
  have noPoint : (Numeral.exponentText exponent ++ rest).head? ≠ some '.' :=
    fun point => by simpa using behind '.' point
  have fractional : Barred Char.isDigit
      (Numeral.fractionText fraction ++ (Numeral.exponentText exponent ++ rest)) := by
    cases fraction with
    | none => exact noDigit
    | some digits => simp [Numeral.fractionText]
  have sign : (if negative then ['-'] else []).length = if negative then 1 else 0 := by
    cases negative <;> rfl
  simp only [Numeral.text, List.append_assoc]
  rw [readNumber_whole negative isWhole noZero fractional,
    readDecimals_fraction negative whole isFraction noDigit noPoint]
  cases exponent with
  | some e =>
    have ends : Barred Char.isDigit rest := ends.imp fun c inside => by simp [lengthens, inside]
    simp only [Numeral.exponentText, Numeral.scalar, Numeral.text, sign, List.length_append,
      readExponent_text negative whole _ (isExponent e rfl) ends, Nat.add_assoc]
  | none =>
    have noLetter : rest.head? ≠ some 'e' := fun letter => by simpa [lengthens] using ends _ letter
    have noLetter' : rest.head? ≠ some 'E' := fun letter => by simpa [lengthens] using ends _ letter
    cases fraction <;>
      simp [readExponent, Numeral.exponentText, Numeral.fractionText, Numeral.scalar, Numeral.text,
        noLetter, noLetter', sign, Nat.add_assoc]

theorem scale_error {fuel : Nat} {x : Decimal.Binary64} {exponent : Int} {fault : Fault}
    (h : scale fuel x exponent = .error fault) : fault = .numberRange := by
  induction fuel generalizing x exponent with
  | zero => cases h
  | succ fuel ih =>
    rw [scale] at h
    split at h
    · split at h
      · split at h <;> cases h
        rfl
      · cases h
    · split at h
      · cases h
      · split at h
        · cases h
          rfl
        · exact ih h

theorem Significand.toFloat_error {s : Significand} {negative : Bool} {fault : Fault}
    (h : s.toFloat negative = .error fault) : fault = .numberRange :=
  scale_error (map_eq_error.mp h)

theorem fractionalNumber_error {negative down : Bool} {whole fraction exponent : List Char}
    {fault : Fault} (h : fractionalNumber negative whole fraction down exponent = .error fault) :
    fault = .numberRange := by
  simp only [fractionalNumber] at h
  split at h
  · split at h <;> cases h
    rfl
  · exact Significand.toFloat_error h

theorem Numeral.scalar_cases (n : Numeral) :
    (∃ i, n.scalar = .whole (.integer i) n.text.length) ∨
      (∃ x, n.scalar = .whole (.float x) n.text.length) ∨
        n.scalar = .undecodable .numberRange n.text.length := by
  have float (x : Except Fault Decimal.Binary64) (h : n.scalar = .ofFloat x n.text.length)
      (range : ∀ fault, x = .error fault → fault = .numberRange) :
      (∃ x, n.scalar = .whole (.float x) n.text.length) ∨
        n.scalar = .undecodable .numberRange n.text.length := by
    cases x with
    | ok x => exact .inl ⟨x, h⟩
    | error fault =>
      cases range fault rfl
      exact .inr h
  obtain ⟨negative, whole, fraction, exponent⟩ := n
  match exponent, fraction with
  | some e, fraction => exact .inr (float _ rfl fun _ => fractionalNumber_error)
  | none, some digits => exact .inr (float _ rfl fun _ => fractionalNumber_error)
  | none, none =>
    have isWhole : scalar ⟨negative, whole, none, none⟩ = wholeNumber negative whole _ := rfl
    simp only [wholeNumber] at isWhole
    split at isWhole
    · exact .inl ⟨_, isWhole⟩
    · split at isWhole
      · exact .inl ⟨_, isWhole⟩
      · exact .inr (float _ isWhole fun _ => Significand.toFloat_error)

end TypeHints.Json
