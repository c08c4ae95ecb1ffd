import TypeHints.Proofs.Hint.Quoting

namespace TypeHints.Hint
open Text Decimal

def escape (c : Char) : List Char := if c = '\'' ∨ c = '\\' then ['\\', c] else [c]

def Lexeme.text : Lexeme → List Char
  | .name word => word.toList
  | .this => "$this".toList
  | .var word => '$' :: word.toList
  | .int value => value.toInt.repr.toList
  | .float value => value.positional.toList
  | .quoted content => '\'' :: (content.toList.flatMap escape ++ ['\''])
  | .mark m => m.text.toList
  | .malformed _ | .finish => []

/-- Whether the lexeme is read back from its own text. -/
def Lexeme.isPlain (l : Lexeme) : Bool :=
  match l.text with
  | c :: cs => !isBlank c && scan c cs = (l, cs.length)
  | [] => false

theorem isPlain_iff {l : Lexeme} : l.isPlain = true ↔
    ∃ c cs, l.text = c :: cs ∧ isBlank c = false ∧ scan c cs = (l, cs.length) := by
  unfold Lexeme.isPlain
  split
  next c cs same =>
    simp only [same, List.cons.injEq, Bool.and_eq_true, Bool.not_eq_true', decide_eq_true_eq]
    constructor
    · rintro ⟨visible, read⟩
      exact ⟨c, cs, ⟨rfl, rfl⟩, visible, read⟩
    · rintro ⟨_, _, ⟨rfl, rfl⟩, visible, read⟩
      exact ⟨visible, read⟩
  next none => simp [none]

theorem isLegible_of_isPlain {l : Lexeme} (h : l.isPlain = true) : l.isLegible = true := by
  cases l with
  | malformed | finish => cases h
  | var word =>
    refine decide_eq_true fun nameless => ?_
    rw [nameless] at h
    revert h
    decide
  | _ => rfl

/-! ### A whole text -/

/-- The text would go on with the lexeme. -/
def Lexeme.runsInto (l : Lexeme) (after : List Char) : Bool := after.head?.any fun c => !l.closedBy c

def write : List Lexeme → List Char
  | [] => []
  | l :: ls => l.text ++ if l.runsInto (write ls) then ' ' :: write ls else write ls

theorem closedBy_blank (l : Lexeme) : l.closedBy ' ' = true := by
  cases l with
  | mark m => cases m <;> rfl
  | _ => rfl

theorem tokensFrom_text {l : Lexeme} (plain : l.isPlain = true) {after : List Char}
    (apart : l.runsInto after = false) (start : Nat) :
    ∃ start', lexemes (tokensFrom start (l.text ++ after)) = l :: lexemes (tokensFrom start' after) := by
  obtain ⟨c, cs, text, visible, read⟩ := isPlain_iff.mp plain
  have closed : Follows l (cs.drop cs.length) after := .closed (by
    cases after <;> simp_all [Lexeme.runsInto, Barred])
  have again := scan_follows read (isLegible_of_isPlain plain) closed
  rw [List.take_length] at again
  rw [text, List.cons_append, tokensFrom_head visible again, List.drop_left]
  exact ⟨_, rfl⟩

theorem lexemes_write {ls : List Lexeme} (plain : ∀ l ∈ ls, l.isPlain = true) (start : Nat) :
    lexemes (tokensFrom start (write ls)) = ls ++ [.finish] := by
  induction ls generalizing start with
  | nil => rw [write, tokensFrom_blank rfl]; rfl
  | cons l ls ih =>
    have others := ih fun m member => plain m (List.mem_cons_of_mem l member)
    have first := plain l (by simp)
    rw [write]
    split
    next =>
      have blank : ∀ c ∈ [' '], isBlank c = true := List.forall_mem_singleton.mpr (by decide)
      have apart : l.runsInto (' ' :: write ls) = false := by
        simp [Lexeme.runsInto, closedBy_blank]
      obtain ⟨start', read⟩ := tokensFrom_text first apart start
      rw [read, ← List.singleton_append (x := ' '), tokensFrom_append_blank blank, others]
      rfl
    next apart =>
      obtain ⟨start', read⟩ := tokensFrom_text first (Bool.eq_false_iff.mpr apart) start
      rw [read, others]
      rfl

/-! ### Which lexemes are plain -/

theorem isPlain_mark (m : Mark) : (Lexeme.mark m).isPlain = true := by
  cases m <;> decide

theorem isPlain_this : Lexeme.this.isPlain = true := by decide

theorem takeQuoted_escape (text after : List Char) :
    takeQuoted '\'' (text.flatMap escape ++ '\'' :: after) =
      some (text, (text.flatMap escape).length + 1) :=
  takeQuoted_escapeFor (.inl rfl) text after

theorem isPlain_quoted (text : String) : (Lexeme.quoted text).isPlain = true := by
  refine isPlain_iff.mpr ⟨'\'', _, rfl, by decide, ?_⟩
  have read := takeQuoted_escape text.toList []
  show quotedLexeme '\'' _ = _
  simp [quotedLexeme, read]

/-! ### Without blanks -/

def textOf (ls : List Lexeme) : List Char := ls.flatMap Lexeme.text

theorem textOf_append (ls more : List Lexeme) : textOf (ls ++ more) = textOf ls ++ textOf more := by
  simp [textOf]

theorem textOf_cons (l : Lexeme) (ls : List Lexeme) : textOf (l :: ls) = l.text ++ textOf ls := by
  simp [textOf]

theorem textOf_name (word : String) : textOf [.name word] = word.toList := by
  simp [textOf, Lexeme.text]

/-- Marks of one character that neither run into anything nor have a word run into them. -/
def Mark.isLone : Mark → Bool
  | .pipe | .amp | .question | .openParen | .closeParen | .openAngle | .closeAngle | .comma => true
  | _ => false

def Lexeme.isWord : Lexeme → Bool
  | .name _ | .int _ => true
  | _ => false

/-- Plain words and lone marks, where a mark stands between any two words. -/
inductive Spaced : List Lexeme → Prop
  | nil : Spaced []
  | mark {m : Mark} {ls : List Lexeme} (lone : m.isLone = true) (rest : Spaced ls) :
      Spaced (.mark m :: ls)
  | last {l : Lexeme} (word : l.isWord = true) (plain : l.isPlain = true) : Spaced [l]
  | word {l : Lexeme} {m : Mark} {ls : List Lexeme} (word : l.isWord = true)
      (plain : l.isPlain = true) (rest : Spaced (.mark m :: ls)) : Spaced (l :: .mark m :: ls)

theorem Spaced.append {ls more : List Lexeme} {m : Mark} (h : Spaced ls) (lone : m.isLone = true)
    (tail : Spaced more) : Spaced (ls ++ .mark m :: more) := by
  induction h with
  | nil => exact .mark lone tail
  | mark first _ ih => exact .mark first ih
  | last word plain => exact .word word plain (.mark lone tail)
  | word word plain _ ih => exact .word word plain ih

theorem isPlain_of_spaced {ls : List Lexeme} (h : Spaced ls) : ∀ l ∈ ls, l.isPlain = true := by
  induction h with
  | nil => exact nofun
  | mark _ _ ih => exact List.forall_mem_cons.mpr ⟨isPlain_mark _, ih⟩
  | last _ plain => exact List.forall_mem_singleton.mpr plain
  | word _ plain _ ih => exact List.forall_mem_cons.mpr ⟨plain, ih⟩

def endsWord (c : Char) : Bool := !isNameChar c && c ≠ '\\' && c ≠ '.'

theorem Mark.endsWord_of_isLone {m : Mark} (lone : m.isLone = true) :
    m.text.toList.head?.any endsWord = true := by
  cases m <;> first | decide | cases lone

theorem Lexeme.closedBy_of_isWord {l : Lexeme} (word : l.isWord = true) {c : Char}
    (ends : endsWord c = true) : l.closedBy c = true := by
  simp only [endsWord, Bool.and_eq_true] at ends
  cases l with
  | name => exact Bool.and_eq_true_iff.mpr ends.1
  | int => exact Bool.and_eq_true_iff.mpr ⟨ends.1.1, ends.2⟩
  | _ => cases word

theorem write_of_spaced {ls : List Lexeme} (h : Spaced ls) : write ls = textOf ls := by
  induction h with
  | nil => rfl
  | @mark m ls lone _ ih =>
    have apart : (Lexeme.mark m).runsInto (write ls) = false := by
      unfold Lexeme.runsInto
      cases write ls with
      | nil => rfl
      | cons c rest => cases m <;> first | rfl | cases lone
    rw [write, apart, ih]
    rfl
  | last => simp [write, textOf, Lexeme.runsInto]
  | @word l m ls word plain rest ih =>
    have lone : m.isLone = true := by
      cases rest with
      | mark lone _ => exact lone
      | last word _ => cases word
      | word word _ _ => cases word
    have apart : l.runsInto (write (.mark m :: ls)) = false := by
      obtain ⟨c, head, ends⟩ := (Option.any_eq_true _ _).mp (Mark.endsWord_of_isLone lone)
      have first : (write (.mark m :: ls)).head? = some c := by
        rw [write, Lexeme.text, List.head?_append]
        exact Option.or_eq_some_iff.mpr (.inl head)
      simp [Lexeme.runsInto, first, Lexeme.closedBy_of_isWord word ends]
    rw [write, apart, ih]
    rfl

theorem lexemes_textOf {ls : List Lexeme} (h : Spaced ls) (start : Nat) :
    lexemes (tokensFrom start (textOf ls)) = ls ++ [.finish] := by
  rw [← write_of_spaced h]
  exact lexemes_write (isPlain_of_spaced h) start

/-! ### Numbers -/

theorem hexValue_of_isDigit {c : Char} (h : c.isDigit = true) : hexValue c = c.toNat - '0'.toNat :=
  if_pos h

theorem numeral_ten {digits : List Char} (digit : ∀ c ∈ digits, c.isDigit = true) (total : Nat) :
    digits.foldl (fun total c => total * 10 + hexValue c) total = Nat.ofDigitChars 10 digits total := by
  induction digits generalizing total with
  | nil => rfl
  | cons c digits ih =>
    rw [List.foldl_cons, Nat.ofDigitChars_cons, hexValue_of_isDigit (digit c (by simp)),
      ih fun d member => digit d (List.mem_cons_of_mem c member), Nat.mul_comm]

theorem numeral_toDigits (magnitude : Nat) : numeral 10 (Nat.toDigits 10 magnitude) = magnitude := by
  have digit : ∀ c ∈ Nat.toDigits 10 magnitude, c.isDigit = true := fun c member =>
    Nat.isDigit_of_mem_toDigits (by decide) (by decide) member
  exact (numeral_ten digit 0).trans Nat.ofDigitChars_ten_toDigits

theorem isDecimal_digits {digits : List Char} (inside : ∀ c ∈ digits, isDigitOrGap c = true) :
    IsDecimal digits [] [] [] := by
  refine ⟨takeWhile_append_barred inside (barred_nil _), ?_, rfl, rfl⟩
  exact dropWhile_append_barred inside (barred_nil _)

theorem isHexMarked_digits {digits : List Char} (inside : ∀ c ∈ digits, isDigitOrGap c = true) :
    isHexMarked digits = false := by
  match digits with
  | [] | [_] => simp [isHexMarked]
  | c :: x :: digits =>
    have second := inside x (by simp)
    have other : x ≠ 'x' ∧ x ≠ 'X' := by
      constructor <;> rintro rfl <;> exact absurd second (by decide)
    simp [isHexMarked, other]

theorem numberLexeme_digits {sign digits : List Char} (signed : sign = ['-'] ∨ sign = [])
    (inside : ∀ c ∈ digits, isDigitOrGap c = true) :
    numberLexeme (sign ++ digits) =
      (integerLexeme (sign = ['-']) ((sign ++ digits).filter (· != '_')) (digits.filter Char.isDigit),
        (sign ++ digits).length) := by
  have unsigned : digits.head? ≠ some '-' := by
    intro minus
    exact absurd (inside '-' (List.mem_of_mem_head? minus)) (by decide)
  have read : numberLexeme (sign ++ (digits ++ ([] ++ ([] ++ [])))) = _ :=
    numberLexeme_decimal (signed.imp_right fun none => ⟨none, by simpa using unsigned⟩)
      (by simpa using isHexMarked_digits inside) (isDecimal_digits inside)
  simp only [List.append_nil, decimalLexeme, List.isEmpty_nil, Bool.and_self, if_true] at read
  exact read

theorem numberLexeme_toDigits {sign : List Char} {magnitude : Nat} {value : Int64}
    (signed : sign = ['-'] ∨ sign = []) (fits : toInt64? (sign = ['-']) magnitude = some value) :
    numberLexeme (sign ++ Nat.toDigits 10 magnitude) =
      (.int value, (sign ++ Nat.toDigits 10 magnitude).length) := by
  have digit : ∀ c ∈ Nat.toDigits 10 magnitude, c.isDigit = true := fun c member =>
    Nat.isDigit_of_mem_toDigits (by decide) (by decide) member
  have digits : (Nat.toDigits 10 magnitude).filter Char.isDigit = Nat.toDigits 10 magnitude :=
    List.filter_eq_self.mpr digit
  rw [numberLexeme_digits signed fun c member => by simp [isDigitOrGap, digit c member]]
  simp only [integerLexeme, digits, List.isEmpty_iff, Nat.toDigits_ne_nil, if_false, numeral_toDigits,
    fits]

theorem scan_number {c : Char} {rest : List Char} {l : Lexeme} {n : Nat}
    (begins : beginsNumber c rest = true) (read : numberLexeme (c :: rest) = (l, n + 1)) :
    scan c rest = (l, n) := by
  have other (d : Char) (no : beginsNumber d rest = false) : c ≠ d := by
    rintro rfl; rw [begins] at no; exact absurd no (by simp)
  have solo : soloMark? c = none := by
    unfold soloMark?
    split <;> first | rfl | exact absurd begins (by simp [beginsNumber])
  have quote : ¬ (c = '\'' ∨ c = '"') := by
    rintro (rfl | rfl) <;> exact absurd begins (by simp [beginsNumber])
  rw [scan, solo]
  dsimp only
  rw [if_neg (other ':' (by simp [beginsNumber])), if_neg (other '=' (by simp [beginsNumber])),
    if_neg (not_ellipsis_of_beginsNumber begins), if_neg (other '$' (by simp [beginsNumber])),
    if_neg quote]
  exact (if_pos begins).trans (by rw [read, Nat.add_sub_cancel])

theorem visible_of_beginsNumber {c : Char} {rest : List Char} (h : beginsNumber c rest = true) :
    isBlank c = false := by
  simp only [beginsNumber, Bool.or_eq_true, Bool.and_eq_true, beq_iff_eq] at h
  rcases h with (digit | ⟨rfl, -⟩) | ⟨rfl, -⟩
  · exact visible_of_isNameChar (by simp [isNameChar, digit])
  · decide
  · decide

theorem isPlain_of_number {l : Lexeme} {c : Char} {cs : List Char} (text : l.text = c :: cs)
    (begins : beginsNumber c cs = true) (read : numberLexeme (c :: cs) = (l, (c :: cs).length)) :
    l.isPlain = true :=
  isPlain_iff.mpr ⟨c, cs, text, visible_of_beginsNumber begins, scan_number begins read⟩

theorem isPlain_int (value : Int64) : (Lexeme.int value).isPlain = true := by
  have low := value.le_toInt
  have high := value.toInt_lt
  have back : Int64.ofInt value.toInt = value := value.ofInt_toInt
  have bound : Nat.pow 2 63 = 9223372036854775808 := rfl
  cases same : value.toInt with
  | ofNat magnitude =>
    rw [same] at back high
    have fits : toInt64? false magnitude = some value := by
      rw [toInt64?, if_neg (by decide), if_pos (by rw [Int.ofNat_eq_natCast] at high; omega)]
      exact congrArg some back
    have text : (Lexeme.int value).text = Nat.toDigits 10 magnitude := by
      rw [Lexeme.text, same, Int.repr, Nat.toList_repr]
    cases digits : Nat.toDigits 10 magnitude with
    | nil => exact absurd digits Nat.toDigits_ne_nil
    | cons c cs =>
      have first : c.isDigit = true :=
        Nat.isDigit_of_mem_toDigits (b := 10) (n := magnitude) (by decide) (by decide) (by simp [digits])
      have read := numberLexeme_toDigits (.inr rfl) fits
      rw [digits] at text read
      exact isPlain_of_number text (by simp [beginsNumber, first]) read
  | negSucc magnitude =>
    rw [same] at back low
    have fits : toInt64? true (magnitude + 1) = some value := by
      rw [toInt64?, if_pos rfl, if_pos (by omega)]
      exact congrArg some back
    have text : (Lexeme.int value).text = '-' :: Nat.toDigits 10 (magnitude + 1) := by
      rw [Lexeme.text, same, Int.repr, String.toList_append, Nat.toList_repr]
      rfl
    have read := numberLexeme_toDigits (.inl rfl) fits
    refine isPlain_of_number text ?_ read
    cases digits : Nat.toDigits 10 (magnitude + 1) with
    | nil => exact absurd digits Nat.toDigits_ne_nil
    | cons c cs =>
      have first : c.isDigit = true :=
        Nat.isDigit_of_mem_toDigits (b := 10) (n := magnitude + 1) (by decide) (by decide)
          (by simp [digits])
      simp [beginsNumber, first]

/-! ### Lexemes of a text -/

def Lexeme.isFloat : Lexeme → Bool
  | .float _ => true
  | _ => false

theorem scan_name {c : Char} {rest : List Char} {word : String} {n : Nat}
    (read : scan c rest = (.name word, n)) :
    word.toList = c :: rest.take n ∧ (rest.take n).length = n ∧
      ∀ d ∈ word.toList, isNameChar d = true ∨ d = '\\' := by
  cases scanned read with
  | sigil dollar read =>
    unfold variableLexeme at read
    split at read
    · split at read
      · have same := (Prod.mk.inj read).1
        split at same <;> cases same
      · cases read
    · cases read
  | quoted quote read => unfold quotedLexeme at read; split at read <;> cases read
  | number begins read count => cases isNumber_numberLexeme read rfl
  | name inside start read count =>
    unfold nameLexeme at read
    split at read
    · cases read
    · rw [count, take_length_takeName]
      obtain rfl := Lexeme.name.inj read
      rw [String.toList_ofList]
      refine ⟨rfl, rfl, List.forall_mem_cons.mpr ⟨?_, fun d member => of_mem_takeName member⟩⟩
      rcases start with ⟨-, start⟩ | ⟨-, rfl⟩
      · exact .inl (by simp [isNameChar, start])
      · exact .inr rfl

theorem scan_var {c : Char} {rest : List Char} {word : String} {n : Nat}
    (read : scan c rest = (.var word, n)) :
    '$' :: word.toList = c :: rest.take n ∧ (rest.take n).length = n := by
  have variable' : variableLexeme rest = (.var word, n) := scan_variable read rfl
  have dollar : c = '$' := by
    cases scanned read with
    | sigil dollar => exact dollar
    | quoted quote read => unfold quotedLexeme at read; split at read <;> cases read
    | number begins read count =>
      have other := isVariable_numberLexeme (c :: rest)
      rw [read] at other
      cases other
    | name inside start read count => unfold nameLexeme at read; split at read <;> cases read
  unfold variableLexeme at variable'
  split at variable'
  next d tail =>
    split at variable'
    next =>
      obtain ⟨same, rfl⟩ := Prod.mk.inj variable'
      split at same
      · cases same
      · obtain rfl := Lexeme.var.inj same
        rw [dollar, String.toList_ofList, ← List.prefix_iff_eq_take.mp (List.takeWhile_prefix _)]
        exact ⟨rfl, rfl⟩
    next => cases variable'
  next => cases variable'

theorem isPlain_of_scan {c : Char} {rest : List Char} {l : Lexeme} {n : Nat}
    (read : scan c rest = (l, n)) (legible : l.isLegible = true) (exact : l.isFloat = false) :
    l.isPlain = true := by
  have again := scan_follows read legible (follows_nil l _)
  rw [List.append_nil] at again
  cases l with
  | name word =>
    obtain ⟨text, size, inside⟩ := scan_name read
    have visible : isBlank c = false := by
      rcases inside c (by simp [text]) with go | rfl
      · exact visible_of_isNameChar go
      · decide
    exact isPlain_iff.mpr ⟨c, rest.take n, text, visible, by rw [size]; exact again⟩
  | var word =>
    obtain ⟨text, size⟩ := scan_var read
    obtain ⟨rfl, -⟩ := List.cons.inj text
    exact isPlain_iff.mpr ⟨'$', rest.take n, text, by decide, by rw [size]; exact again⟩
  | this => exact isPlain_this
  | int value => exact isPlain_int value
  | quoted text => exact isPlain_quoted text
  | mark m => exact isPlain_mark m
  | float => cases exact
  | malformed | finish => cases legible

theorem name_isPlain {word : String} (plain : (Lexeme.name word).isPlain = true) :
    word ≠ "" ∧ ∀ d ∈ word.toList, isNameChar d = true ∨ d = '\\' := by
  obtain ⟨c, cs, text, -, read⟩ := isPlain_iff.mp plain
  refine ⟨?_, (scan_name read).2.2⟩
  rintro rfl
  cases text

theorem isPlain_of_tokens {start : Nat} {cs : List Char} {used rest : List Token}
    (h : tokensFrom start cs = used ++ rest) (legible : ∀ t ∈ used, t.lexeme.isLegible = true)
    {l : Lexeme} (member : l ∈ lexemes used) (exact : l.isFloat = false) : l.isPlain = true := by
  obtain ⟨t, inside, rfl⟩ := List.mem_map.mp member
  obtain ⟨front, back, rfl⟩ := List.append_of_mem inside
  have seen := legible t inside
  rw [List.append_assoc, List.cons_append] at h
  obtain ⟨c, tail, n, read, -⟩ := token_scanned h (by rintro same; rw [same] at seen; cases seen)
  exact isPlain_of_scan read seen exact

end TypeHints.Hint
