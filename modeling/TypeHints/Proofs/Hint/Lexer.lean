import TypeHints.Proofs.Hint.Delimitation
import TypeHints.Proofs.Hint.Offsets
import TypeHints.Proofs.Text.Cursor

/-!
# Tokens one by one

A lexer that takes tokens off a text with a cursor, as far as one is asked for.
-/
namespace TypeHints.Hint
open Text

namespace Lexer
open Cursor

/-! ### Lexemes -/

def segment (_ : Unit) : Cursor (Turn Unit Unit) := do
  if (← peek).any isNameStart then
    eatWhile isNameChar
    if (← peek) = some '\\' then
      skip
      return .again ()
    else return .done ()
  else return .done ()

def segments : Cursor Unit := loop segment ()

def name : Cursor Lexeme := do
  let text ← taken do
    accept '\\'
    segments
  return nameLexeme text

def sigil : Cursor Lexeme := do
  skip
  if (← peek).any isNameStart then
    let text ← taken (eatWhile isVariableChar)
    return if text = "this".toList then .this else .var (String.ofList text)
  else return .malformed .namelessVariable

def contentTurn (q : Char) (out : List Char) : Cursor (Turn (List Char) (Option (List Char))) := do
  match ← bump with
  | none => return .done none
  | some c =>
    if c = q then return .done (some out)
    else if c = '\\' then
      match ← bump with
      | none => return .done none
      | some e => return .again (out ++ unescape q e)
    else return .again (out ++ [c])

def content (q : Char) : Cursor (Option (List Char)) := loop (contentTurn q) []

def quoted (q : Char) : Cursor Lexeme := do
  skip
  match ← content q with
  | some out => return .quoted (String.ofList out)
  | none => return .malformed .unterminatedString

def fraction : Cursor Unit := do
  if (← peek) = some '.' && (← peekAt 1) ≠ some '.' then
    skip
    eatWhile isDigitOrGap
  else return ()

def exponent : Cursor Unit := do
  let letter ← peek
  if letter = some 'e' || letter = some 'E' then
    let sign ← peekAt 1
    let digitAt := if sign = some '+' || sign = some '-' then 2 else 1
    if (← peekAt digitAt).any Char.isDigit then
      skips digitAt
      eatWhile Char.isDigit
    else return ()
  else return ()

def number : Cursor Lexeme := do
  let start ← position
  let sign ← taken (accept '-')
  if isHexMarked (← ahead) then
    advance 2
    let digits ← taken (eatWhile fun c => isHexDigit c || c == '_')
    let written ← cut start (← position)
    return hexLexeme (sign = ['-']) written digits
  else
    let whole ← taken (eatWhile isDigitOrGap)
    let fraction ← taken fraction
    let exponent ← taken exponent
    return decimalLexeme sign whole fraction exponent

def pair (short : Mark) (next : Char) (long : Mark) : Cursor Lexeme := do
  skip
  if (← peek) = some next then
    skip
    return .mark long
  else return .mark short

def word (c : Char) : Cursor Lexeme := do
  let second ← peekAt 1
  if c = '$' then sigil
  else if c = '\'' ∨ c = '"' then quoted c
  else if c.isDigit || (c == '.' && second.any Char.isDigit) ||
      (c == '-' && second.any fun d => d.isDigit || d == '.') then number
  else if isNameStart c || c = '\\' then name
  else
    skip
    return .malformed (.character c)

/-- The lexeme that begins with the character at the cursor. -/
def lexeme (c : Char) : Cursor Lexeme := do
  match soloMark? c with
  | some m =>
    skip
    return .mark m
  | none =>
    if c = ':' then pair .colon ':' .doubleColon
    else if c = '=' then pair .equal '>' .arrow
    else if c = '.' && (← ahead).take 3 = "...".toList then
      advance 3
      return .mark .ellipsis
    else word c

/-! ### Tokens -/

def next : Cursor Token := do
  eatWhile isBlank
  let start ← position
  match ← peek with
  | none => return ⟨.finish, start, []⟩
  | some c =>
    let lexeme ← lexeme c
    return ⟨lexeme, start, ← cut start (← position)⟩

def drainTurn (before : List Token) : Cursor (Turn (List Token) (List Token)) := do
  let t ← next
  if t.lexeme = .finish then return .done (before ++ [t])
  else return .again (before ++ [t])

def drain : Cursor (List Token) := loop drainTurn []

section
variable {front used back : List Char}

/-! ### Names, variables and quoted texts -/

theorem takeName_word {word : List Char} (inside : ∀ c ∈ word, isNameChar c = true) (cs : List Char) :
    takeName true (word ++ cs) = word ++ takeName true cs := by
  induction word with
  | nil => rfl
  | cons c word ih =>
    obtain ⟨first, others⟩ := List.forall_mem_cons.mp inside
    simp only [List.cons_append, takeName, first, if_true, ih others]

theorem takeName_stop {cs : List Char} (none : takeName true cs = []) :
    Barred isNameChar cs ∧ cs.head? ≠ some '\\' := by
  cases cs with
  | nil => exact ⟨barred_nil _, by simp⟩
  | cons c rest =>
    simp only [takeName] at none
    split at none
    · cases none
    next other =>
      split at none
      · cases none
      next slash => exact ⟨barred_cons.mpr (Bool.eq_false_iff.mpr other), by simpa using slash⟩

theorem takeName_slash {c : Char} {cs more : List Char} (read : takeName true (c :: cs) = c :: more)
    (other : isNameChar c = false) : c = '\\' ∧ takeName false cs = more := by
  simp only [takeName, other, Bool.false_eq_true, if_false] at read
  split at read
  next slash => exact ⟨slash, (List.cons.inj read).2⟩
  next => cases read

theorem segment_turns (read : takeName false (used ++ back) = used) {n : Nat} (enough : used.length < n) :
    Takes (turns segment n ()) front used back () := by
  induction n generalizing front used with
  | zero => exact absurd enough (Nat.not_lt_zero _)
  | succ n ih =>
    cases used with
    | nil =>
      have stop : (([] ++ back).head?.any isNameStart) = false := by
        cases back with
        | nil => rfl
        | cons d rest =>
          simp only [List.nil_append, takeName] at read
          split at read
          · cases read
          next plain => simpa using plain
      refine turns_done (peek_takes.seen ?_)
      rw [stop]
      exact takes_pure _
    | cons c used =>
      simp only [List.cons_append, takeName] at read
      split at read
      next begins =>
        obtain ⟨word, tail, rfl, inside, bar⟩ : ∃ word tail, used = word ++ tail ∧
            (∀ d ∈ word, isNameChar d = true) ∧ Barred isNameChar tail :=
          ⟨_, _, List.takeWhile_append_dropWhile.symm, takeWhile_inside _ _, barred_dropWhile _ _⟩
        have name : ∀ d ∈ c :: word, isNameChar d = true :=
          List.forall_mem_cons.mpr ⟨by simp [isNameChar, begins], inside⟩
        have rest := (List.cons.inj read).2
        rw [List.append_assoc, takeName_word inside] at rest
        have behind := List.append_cancel_left rest
        cases tail with
        | nil =>
          obtain ⟨stop, slash⟩ := takeName_stop behind
          rw [List.append_nil]
          refine turns_done (peek_takes.seen ?_)
          simp only [List.cons_append, List.head?_cons, Option.any_some, begins, if_true]
          refine (eatWhile_takes name stop).look (peek_takes.seen ?_)
          rw [List.nil_append, if_neg slash]
          exact takes_pure _
        | cons d more =>
          obtain ⟨rfl, later⟩ := takeName_slash behind (barred_cons.mp bar)
          have text : c :: (word ++ '\\' :: more) = c :: word ++ ['\\'] ++ more := by simp
          have turn : Takes (segment ()) front (c :: word ++ ['\\']) (more ++ back) (.again ()) := by
            refine peek_takes.seen ?_
            simp only [List.cons_append, List.head?_cons, Option.any_some, begins, if_true]
            refine (eatWhile_takes name (by simpa using bar)).bind (peek_takes.seen ?_)
            simp only [List.cons_append, List.head?_cons, if_true]
            exact (skip_takes _).look (takes_pure _)
          rw [text]
          refine turns_again turn (ih later ?_)
          simp only [List.length_cons, List.length_append] at enough
          omega
      next => cases read

theorem segments_takes (read : takeName false (used ++ back) = used) :
    Takes segments front used back () := loop_takes fun _ enough => segment_turns read enough

theorem takeName_append_drop (inside : Bool) (cs : List Char) :
    takeName inside cs ++ cs.drop (takeName inside cs).length = cs := by
  have whole := List.take_append_drop (takeName inside cs).length cs
  rwa [take_length_takeName] at whole

theorem name_takes {c : Char} (begins : isNameStart c = true) (rest : List Char) :
    Takes name front (c :: takeName true rest) (rest.drop (takeName true rest).length)
      (nameLexeme (c :: takeName true rest)) := by
  have text : c :: takeName true rest ++ rest.drop (takeName true rest).length = c :: rest :=
    congrArg (c :: ·) (takeName_append_drop true rest)
  have read : takeName false (c :: rest) = c :: takeName true rest := by simp [takeName, begins]
  have other : c ≠ '\\' := by rintro rfl; exact absurd begins (by decide)
  have whole : Takes (accept '\\' >>= fun _ => segments) front (c :: takeName true rest)
      (rest.drop (takeName true rest).length) () :=
    (accept_other (by simpa using other)).seen (segments_takes (by rw [text, read]))
  exact (taken_takes whole).look (takes_pure _)

theorem name_takes_slash (rest : List Char) :
    Takes name front ('\\' :: takeName false rest) (rest.drop (takeName false rest).length)
      (nameLexeme ('\\' :: takeName false rest)) := by
  have read := congrArg (takeName false) (takeName_append_drop false rest)
  have whole : Takes (accept '\\' >>= fun _ => segments) front ('\\' :: takeName false rest)
      (rest.drop (takeName false rest).length) () := (accept_takes '\\').bind (segments_takes read)
  exact (taken_takes whole).look (takes_pure _)

theorem sigil_takes {rest : List Char} {l : Lexeme} {n : Nat} (read : variableLexeme rest = (l, n)) :
    Takes sigil front ('$' :: rest.take n) (rest.drop n) l := by
  refine Takes.bind (skip_takes '$') (peek_takes.seen ?_)
  rw [List.take_append_drop]
  cases rest with
  | nil =>
    obtain ⟨rfl, rfl⟩ := Prod.mk.inj read
    exact takes_pure _
  | cons c rest =>
    simp only [variableLexeme] at read
    split at read
    next begins =>
      obtain ⟨rfl, rfl⟩ := Prod.mk.inj read
      simp only [List.head?_cons, Option.any_some, begins, if_true]
      rw [drop_length_takeWhile, ← List.prefix_iff_eq_take.mp (List.takeWhile_prefix _)]
      exact (taken_takes (eatWhile_takes (takeWhile_inside _ _) (barred_dropWhile _ _))).look (takes_pure _)
    next other =>
      obtain ⟨rfl, rfl⟩ := Prod.mk.inj read
      simp only [List.head?_cons, Option.any_some, other]
      exact takes_pure _

section
variable {q c : Char} {rest out : List Char} {k : Nat}

theorem contentTurn_closes : Takes (contentTurn q out) front [q] back (.done (some out)) := by
  refine (bump_takes q).look ?_
  simp only [if_true]
  exact takes_pure _

theorem contentTurn_escapes (opens : '\\' ≠ q) (e : Char) :
    Takes (contentTurn q out) front ['\\', e] back (.again (out ++ unescape q e)) := by
  refine Takes.bind (bump_takes '\\') ?_
  simp only [opens, if_false, if_true]
  exact (bump_takes e).look (takes_pure _)

theorem contentTurn_keeps (opens : c ≠ q) (plain : c ≠ '\\') :
    Takes (contentTurn q out) front [c] back (.again (out ++ [c])) := by
  refine (bump_takes c).look ?_
  simp only [opens, plain, if_false]
  exact takes_pure _

theorem content_turns {text : List Char} {n : Nat} (read : takeQuoted q rest = some (text, n))
    (enough : n < k) :
    Takes (turns (contentTurn q) k out) front (rest.take n) (rest.drop n) (some (out ++ text)) := by
  induction k generalizing front rest text n out with
  | zero => exact absurd enough (Nat.not_lt_zero _)
  | succ k ih =>
    unfold takeQuoted at read
    split at read
    next => cases read
    next c rest =>
      split at read
      next closes =>
        subst closes
        cases read
        rw [List.append_nil]
        exact turns_done contentTurn_closes
      next opens =>
        split at read
        next escape =>
          subst escape
          split at read
          next => cases read
          next e rest =>
            obtain ⟨⟨text, n⟩, more, same⟩ := Option.map_eq_some_iff.mp read
            cases same
            rw [← List.append_assoc]
            exact turns_again (contentTurn_escapes opens e) (ih more (by omega))
        next plain =>
          obtain ⟨⟨text, n⟩, more, same⟩ := Option.map_eq_some_iff.mp read
          cases same
          rw [List.append_cons]
          exact turns_again (contentTurn_keeps opens plain) (ih more (by omega))

theorem content_turns_end (read : takeQuoted q rest = none) (enough : rest.length < k) :
    Takes (turns (contentTurn q) k out) front rest [] none := by
  induction k generalizing front rest out with
  | zero => exact absurd enough (Nat.not_lt_zero _)
  | succ k ih =>
    unfold takeQuoted at read
    split at read
    next => exact turns_done (bump_end.look (takes_pure _))
    next c rest =>
      split at read
      next => cases read
      next opens =>
        simp only [List.length_cons] at enough
        split at read
        next escape =>
          subst escape
          split at read
          next =>
            refine turns_done (Takes.look (bump_takes '\\') ?_)
            simp only [opens, if_false, if_true]
            exact bump_end.look (takes_pure _)
          next e rest =>
            simp only [List.length_cons] at enough
            have later : takeQuoted q rest = none := Option.map_eq_none_iff.mp read
            exact turns_again (contentTurn_escapes opens e) (ih later (by omega))
        next plain =>
          have later : takeQuoted q rest = none := Option.map_eq_none_iff.mp read
          exact turns_again (contentTurn_keeps opens plain) (ih later (by omega))

theorem content_takes {text : List Char} {n : Nat} (read : takeQuoted q rest = some (text, n)) :
    Takes (content q) front (rest.take n) (rest.drop n) (some text) := by
  refine loop_takes fun k enough => ?_
  rw [List.length_take_of_le (takeQuoted_le read)] at enough
  exact content_turns read enough

theorem content_takes_end (read : takeQuoted q rest = none) : Takes (content q) front rest [] none :=
  loop_takes fun _ enough => content_turns_end read enough

end

theorem quoted_takes {q : Char} {rest : List Char} {l : Lexeme} {n : Nat}
    (read : quotedLexeme q rest = (l, n)) :
    Takes (quoted q) front (q :: rest.take n) (rest.drop n) l := by
  refine Takes.bind (skip_takes q) ?_
  unfold quotedLexeme at read
  split at read
  next out m closed =>
    obtain ⟨rfl, rfl⟩ := Prod.mk.inj read
    exact (content_takes closed).look (takes_pure _)
  next unclosed =>
    obtain ⟨rfl, rfl⟩ := Prod.mk.inj read
    rw [List.take_length, List.drop_length]
    exact (content_takes_end unclosed).look (takes_pure _)

/-! ### Numbers -/

theorem takeFraction_ne_nil {cs : List Char} :
    takeFraction cs ≠ [] ↔ cs.head? = some '.' ∧ cs[1]? ≠ some '.' := by
  cases cs with
  | nil => simp [takeFraction]
  | cons c rest =>
    by_cases point : c = '.'
    · subst point
      by_cases second : rest.head? = some '.' <;> simp [takeFraction, second, ← List.head?_eq_getElem?]
    · simp [takeFraction, point]

theorem takeExponent_ne_nil {cs : List Char} :
    takeExponent cs ≠ [] ↔ (cs.head? = some 'e' ∨ cs.head? = some 'E') ∧
      (cs[if cs[1]? = some '+' || cs[1]? = some '-' then 2 else 1]?).any Char.isDigit = true := by
  cases cs with
  | nil => simp [takeExponent]
  | cons e rest =>
    simp only [takeExponent, List.head?_cons, Option.some.injEq, List.getElem?_cons_succ,
      ← List.head?_eq_getElem?, takeWhile_ne_nil]
    cases rest.head? = some '+' || rest.head? = some '-' with
    | false => simp [List.head?_eq_getElem?]
    | true => simp [List.head?_eq_getElem?]

theorem fraction_takes (read : takeFraction (used ++ back) = used) :
    Takes fraction front used back () := by
  have counts : takeFraction (used ++ back) ≠ [] ↔ _ := takeFraction_ne_nil
  refine peek_takes.seen ((peekAt_takes 1).seen ?_)
  simp only [Bool.and_eq_true, decide_eq_true_eq, ← counts, read]
  rcases takeFraction_cases (used ++ back) with none | ⟨digits, rest, text, same, single, inside, bar⟩
  · obtain rfl : used = [] := read.symm.trans none
    exact takes_pure ()
  · obtain rfl : used = '.' :: digits := read.symm.trans same
    obtain rfl : back = rest := by simpa using text
    rw [if_pos (by simp)]
    exact Takes.bind (skip_takes '.') (eatWhile_takes inside bar)

theorem exponent_takes (read : takeExponent (used ++ back) = used) :
    Takes exponent front used back () := by
  have counts : takeExponent (used ++ back) ≠ [] ↔ _ := takeExponent_ne_nil
  refine peek_takes.seen ?_
  rcases takeExponent_cases (used ++ back) with
    none | ⟨e, sign, digits, rest, text, same, letter, signed, nonempty, inside, bar⟩
  · obtain rfl : used = [] := read.symm.trans none
    split
    next letter =>
      refine (peekAt_takes 1).seen ((peekAt_takes _).seen ?_)
      rw [if_neg]
      · exact takes_pure ()
      · exact fun digit => counts.mpr ⟨by simpa using letter, digit⟩ none
    next => exact takes_pure ()
  · obtain rfl : used = e :: (sign ++ digits) := read.symm.trans same
    obtain rfl : back = rest := by simpa using text
    obtain ⟨-, digit⟩ := counts.mp (by rw [same]; simp)
    have size : (if (e :: (sign ++ digits) ++ back)[1]? = some '+' ||
        (e :: (sign ++ digits) ++ back)[1]? = some '-' then 2 else 1) = (e :: sign).length := by
      rcases signed with rfl | rfl | rfl
      · obtain ⟨d, tail, rfl⟩ := List.exists_cons_of_ne_nil nonempty
        have digit := inside d List.mem_cons_self
        have plus : d ≠ '+' := by rintro rfl; exact absurd digit (by decide)
        have minus : d ≠ '-' := by rintro rfl; exact absurd digit (by decide)
        simp [plus, minus]
      · simp
      · simp
    rw [if_pos (by simpa using letter)]
    refine (peekAt_takes 1).seen ((peekAt_takes _).seen ?_)
    rw [if_pos digit, size, ← List.cons_append]
    exact (skips_takes (e :: sign)).bind (eatWhile_takes inside bar)

theorem number_takes {cs : List Char} {l : Lexeme} {k : Nat} (read : numberLexeme cs = (l, k)) :
    Takes number front (cs.take k) (cs.drop k) l := by
  obtain ⟨sign, body, rfl, signed⟩ := exists_sign cs
  refine position_takes.seen ?_
  have first : Takes (taken (accept '-')) front sign body sign := by
    rcases signed with rfl | ⟨rfl, plain⟩
    · exact taken_takes (accept_takes '-')
    · exact taken_takes (accept_other plain)
  cases hex : isHexMarked body with
  | true =>
    obtain ⟨x, digits, back, rfl, mark, inside, stop⟩ := exists_hex hex
    rw [numberLexeme_hex (signed.imp_right And.left) mark inside stop] at read
    obtain ⟨rfl, rfl⟩ := Prod.mk.inj read
    have text : sign ++ '0' :: x :: (digits ++ back) = sign ++ '0' :: x :: digits ++ back := by simp
    have marked : isHexMarked ('0' :: x :: digits ++ back) = true := hex
    have two : byteSize ['0', x] = 2 := by rcases mark with rfl | rfl <;> rfl
    have marker : Takes (advance 2) (front ++ sign) ['0', x] (digits ++ back) () := two ▸ advance_takes _
    rw [text, List.take_left, List.drop_left]
    refine first.bind (ahead_takes.seen ?_)
    rw [if_pos marked]
    refine marker.bind ((taken_takes (eatWhile_takes inside stop)).look (position_takes.seen ?_))
    have whole : front ++ sign ++ ['0', x] ++ digits = front ++ (sign ++ '0' :: x :: digits) := by simp
    rw [whole]
    exact cut_takes.seen (takes_pure _)
  | false =>
    obtain ⟨whole, fraction, exponent, back, rfl, parts⟩ := exists_isDecimal body
    rw [numberLexeme_decimal signed hex parts] at read
    obtain ⟨rfl, rfl⟩ := Prod.mk.inj read
    have text : sign ++ (whole ++ (fraction ++ (exponent ++ back))) =
        sign ++ whole ++ fraction ++ exponent ++ back := by simp
    have regroup : whole ++ (fraction ++ (exponent ++ back)) = whole ++ (fraction ++ exponent) ++ back := by
      simp
    have inside : ∀ c ∈ whole, isDigitOrGap c = true := parts.takeWhole ▸ takeWhile_inside _ _
    have stop : Barred isDigitOrGap (fraction ++ (exponent ++ back)) :=
      parts.dropWhole ▸ barred_dropWhile _ _
    have second : Takes (taken (eatWhile isDigitOrGap)) (front ++ sign) whole
        (fraction ++ exponent ++ back) whole := by
      rw [List.append_assoc]
      exact taken_takes (eatWhile_takes inside stop)
    rw [text, List.take_left, List.drop_left, List.append_assoc, List.append_assoc]
    rw [regroup] at first hex
    refine first.bind (ahead_takes.seen ?_)
    rw [if_neg (Bool.eq_false_iff.mp hex)]
    refine second.bind ((taken_takes (fraction_takes parts.readFraction)).bind ?_)
    exact (taken_takes (exponent_takes parts.readExponent)).look (takes_pure _)

/-! ### Lexemes and tokens -/

theorem pair_long {c next : Char} (short long : Mark) :
    Takes (pair short next long) front [c, next] back (.mark long) := by
  refine Takes.bind (skip_takes c) (peek_takes.seen ?_)
  simp only [List.cons_append, List.head?_cons, if_true]
  exact (skip_takes next).look (takes_pure _)

theorem pair_short {c next : Char} (short long : Mark) (other : back.head? ≠ some next) :
    Takes (pair short next long) front [c] back (.mark short) := by
  refine Takes.look (skip_takes c) (peek_takes.seen ?_)
  simp only [List.nil_append, other, if_false]
  exact takes_pure _

theorem one_le_numberLexeme {c : Char} {rest : List Char} (begins : beginsNumber c rest = true) :
    1 ≤ (numberLexeme (c :: rest)).2 := by
  simp only [beginsNumber, Bool.or_eq_true, Bool.and_eq_true, beq_iff_eq] at begins
  rcases begins with (digit | ⟨rfl, head⟩) | ⟨rfl, -⟩
  · exact one_le_numberLexeme_digit digit
  · cases rest with
    | nil => cases head
    | cons d rest => exact Nat.le_of_succ_le (two_le_numberLexeme_point head)
  · show 1 ≤ (numberLexeme (['-'] ++ rest)).2
    cases hex : isHexMarked rest with
    | true =>
      obtain ⟨x, digits, back, rfl, mark, inside, stop⟩ := exists_hex hex
      rw [numberLexeme_hex (.inl rfl) mark inside stop]
      simp
    | false =>
      obtain ⟨whole, fraction, exponent, back, rfl, parts⟩ := exists_isDecimal rest
      rw [numberLexeme_decimal (.inl rfl) hex parts]
      simp only [List.length_append, List.length_singleton]
      omega

section
variable {c : Char} {rest : List Char} {l : Lexeme} {n : Nat}

theorem number_begins_takes {k : Nat} (begins : beginsNumber c rest = true)
    (read : numberLexeme (c :: rest) = (l, k)) :
    Takes number front (c :: rest.take (k - 1)) (rest.drop (k - 1)) l := by
  have one := one_le_numberLexeme begins
  rw [read] at one
  obtain ⟨n, rfl⟩ : ∃ n, k = n + 1 := ⟨k - 1, (Nat.sub_add_cancel one).symm⟩
  have whole : Takes number front ((c :: rest).take (n + 1)) ((c :: rest).drop (n + 1)) l :=
    number_takes read
  rw [List.take_succ_cons, List.drop_succ_cons] at whole
  rw [Nat.add_sub_cancel]
  exact whole

theorem word_takes (solo : soloMark? c = none) (noColon : c ≠ ':') (noEqual : c ≠ '=')
    (noPoints : ¬ (c = '.' ∧ rest.take 2 = ['.', '.'])) (read : scan c rest = (l, n)) :
    Takes (word c) front (c :: rest.take n) (rest.drop n) l := by
  simp only [scan, solo, noColon, noEqual, noPoints, if_false] at read
  refine (peekAt_takes 1).seen ?_
  rw [List.cons_append, List.take_append_drop, List.getElem?_cons_succ, ← List.head?_eq_getElem?]
  split at read
  next dollar =>
    subst dollar
    rw [if_pos rfl]
    exact sigil_takes read
  next noDollar =>
  rw [if_neg noDollar]
  split at read
  next quote =>
    rw [if_pos quote]
    exact quoted_takes read
  next noQuote =>
  rw [if_neg noQuote]
  split at read
  next begins =>
    rw [if_pos begins]
    cases number : numberLexeme (c :: rest) with
    | mk l' k =>
      rw [number] at read
      cases read
      exact number_begins_takes begins number
  next noNumber =>
  rw [if_neg noNumber]
  split at read
  next begins =>
    cases read
    rw [if_pos (by simp [begins]), List.length_cons, Nat.add_sub_cancel, take_length_takeName]
    exact name_takes begins rest
  next noName =>
  split at read
  next slash =>
    subst slash
    cases read
    rw [if_pos (by simp), List.length_cons, Nat.add_sub_cancel, take_length_takeName]
    exact name_takes_slash rest
  next noSlash =>
  cases read
  rw [if_neg (by simp [noName, noSlash])]
  exact (skip_takes c).look (takes_pure _)

theorem lexeme_takes (read : scan c rest = (l, n)) :
    Takes (lexeme c) front (c :: rest.take n) (rest.drop n) l := by
  have text : c :: rest.take n ++ rest.drop n = c :: rest := by
    rw [List.cons_append, List.take_append_drop]
  unfold lexeme
  cases solo : soloMark? c with
  | some m =>
    simp only [scan, solo] at read
    cases read
    exact (skip_takes c).look (takes_pure _)
  | none =>
    dsimp only
    split
    next colon =>
      subst colon
      simp only [scan, solo, if_true] at read
      split at read
      next double =>
        obtain ⟨tail, rfl⟩ := List.head?_eq_some_iff.mp double
        cases read
        exact pair_long _ _
      next single =>
        cases read
        exact pair_short _ _ single
    next noColon =>
    split
    next equal =>
      subst equal
      simp only [scan, solo, noColon, if_false, if_true] at read
      split at read
      next arrow =>
        obtain ⟨tail, rfl⟩ := List.head?_eq_some_iff.mp arrow
        cases read
        exact pair_long _ _
      next single =>
        cases read
        exact pair_short _ _ single
    next noEqual =>
    refine ahead_takes.seen ?_
    rw [text]
    split
    next points' =>
      have points : c = '.' ∧ rest.take 2 = ['.', '.'] := by simpa using points'
      simp only [scan, solo, noColon, noEqual, if_false, if_pos points] at read
      cases read
      obtain ⟨rfl, points⟩ := points
      rw [points]
      exact Takes.look (advance_takes ['.', '.', '.']) (takes_pure _)
    next noPoints => exact word_takes solo noColon noEqual (by simpa using noPoints) read

end

/-! ### Tokens -/

theorem next_takes {gap word : List Char} {c : Char} {l : Lexeme} (blank : ∀ d ∈ gap, isBlank d = true)
    (visible : isBlank c = false) (read : scan c (word ++ back) = (l, word.length)) :
    Takes next front (gap ++ c :: word) back ⟨l, byteSize (front ++ gap), c :: word⟩ := by
  have lexeme : Takes (lexeme c) (front ++ gap) (c :: (word ++ back).take word.length)
      ((word ++ back).drop word.length) l := lexeme_takes read
  rw [List.take_left, List.drop_left] at lexeme
  have bar : Barred isBlank (c :: word ++ back) := barred_cons.mpr visible
  refine (eatWhile_takes blank bar).bind (position_takes.seen (peek_takes.seen ?_))
  exact lexeme.look (position_takes.seen (cut_takes.seen (takes_pure _)))

theorem next_takes_end (blank : ∀ d ∈ used, isBlank d = true) :
    Takes next front used [] ⟨.finish, byteSize (front ++ used), []⟩ :=
  (eatWhile_takes blank (barred_nil _)).look (position_takes.seen (peek_takes.seen (takes_pure _)))

theorem drain_turns {cs : List Char} {n : Nat} (enough : cs.length < n) (before : List Token) :
    Takes (turns drainTurn n before) front cs [] (before ++ tokensFrom (byteSize front) cs) := by
  induction n generalizing front cs before with
  | zero => exact absurd enough (Nat.not_lt_zero _)
  | succ n ih =>
    cases tokensFrom_begins (byteSize front) cs with
    | finish blank whole =>
      rw [whole, ← byteSize_append]
      exact turns_done ((next_takes_end blank).look (takes_pure _))
    | @token gap word back c l split blank visible read whole =>
      have inner := scan_ne_finish c (word ++ back)
      rw [read] at inner
      rw [split] at enough
      simp only [List.length_append, List.length_cons] at enough
      rw [whole, split, ← byteSize_append, ← byteSize_append, ← List.append_assoc gap, List.append_cons before]
      rw [← List.append_nil back] at read
      have turn : Takes (drainTurn before) front (gap ++ c :: word) (back ++ [])
          (.again (before ++ [⟨l, byteSize (front ++ gap), c :: word⟩])) := by
        refine (next_takes blank visible read).look ?_
        rw [if_neg inner]
        exact takes_pure _
      exact turns_again turn (ih (by omega) _)

theorem drain_takes (front cs : List Char) :
    Takes drain front cs [] (tokensFrom (byteSize front) cs) :=
  loop_takes fun _ enough => drain_turns enough []

end

end Lexer

/-! ### Texts -/

theorem drain_tokens (text : String) :
    Lexer.drain text.toList 0 = some (tokens text, byteSize text.toList) := by
  have all := Lexer.drain_takes [] text.toList
  unfold Cursor.Takes at all
  rw [List.append_nil] at all
  exact all

/-- Behind the tokens the cursor finds the end again and again. -/
theorem next_at_end (cs : List Char) :
    Lexer.next cs (byteSize cs) = some (⟨.finish, byteSize cs, []⟩, byteSize cs) := by
  have last : Cursor.Takes Lexer.next cs [] [] ⟨.finish, byteSize (cs ++ []), []⟩ :=
    Lexer.next_takes_end (by simp)
  unfold Cursor.Takes at last
  rw [List.append_nil, List.append_nil] at last
  exact last

theorem splitType_cut {text : String} {n : Node} {stop : Nat} (h : readPrefix text = .ok (n, stop)) :
    ∃ front back, slice? 0 stop text.toList = some front ∧
      slice? stop (byteSize text.toList) text.toList = some back ∧
      DocBlock.splitType text.toList = some (String.ofList (trim front), back) := by
  have place : IsPlace text.toList stop := by
    have lands := readPrefix_lands text
    rw [h] at lands
    exact lands
  obtain ⟨front, back⟩ := slice?_place place
  refine ⟨_, _, front, back, ?_⟩
  simp only [DocBlock.splitType, String.ofList_toList, h]

/-- A cursor that cuts the text only where it looks at it, at offsets of bytes, gets all tokens of it
and then the end for ever. They lie side by side with blanks between them and make up the text. Every
error shows at a place of the text, and a doc comment is cut at one. -/
theorem lexing_keeps_to_places (text : String) :
    Lexer.drain text.toList 0 = some (tokens text, byteSize text.toList) ∧
    Lexer.next text.toList (byteSize text.toList) =
      some (⟨.finish, byteSize text.toList, []⟩, byteSize text.toList) ∧
    Tiles text.toList 0 (tokens text) ∧
    (∀ t ∈ tokens text, IsPlace text.toList t.start ∧ IsPlace text.toList t.stop ∧
      t.stop ≤ byteSize text.toList ∧ (t.start < t.stop ∨
        t.lexeme = .finish ∧ t.start = byteSize text.toList ∧ t.stop = byteSize text.toList)) ∧
    (∀ e, read text = .error e ∨ readPrefix text = .error e →
      IsPlace text.toList e.offset ∧ e.offset ≤ byteSize text.toList) ∧
    ∀ n stop, readPrefix text = .ok (n, stop) → ∃ front back,
      slice? 0 stop text.toList = some front ∧
      slice? stop (byteSize text.toList) text.toList = some back ∧
      DocBlock.splitType text.toList = some (String.ofList (trim front), back) := by
  have tiles := tokens_tile text
  refine ⟨drain_tokens text, next_at_end _, tiles, fun t member => ?_, fun e failed => ?_,
    fun n stop => splitType_cut⟩
  · obtain ⟨first, last⟩ := tiles.placed t member
    exact ⟨first, last, tiles.size t member⟩
  · have place : IsPlace text.toList e.offset := by
      rcases failed with failed | failed
      · have lands := read_lands text
        rw [failed] at lands
        exact lands
      · have lands := readPrefix_lands text
        rw [failed] at lands
        exact lands
    exact ⟨place, place.le⟩

/-- A sign and a point are no number, behind a blank of two bytes; and a type of two bytes is cut off
the variable behind it. -/
theorem lexing_keeps_to_places_beyond_ascii :
    (∃ e, read "\u00a0-." = .error e ∧ e.offset = 2 ∧ IsPlace "\u00a0-.".toList e.offset) ∧
      readPrefix "é $x" = .ok (.name "é", 2) ∧
        ∃ front back, slice? 0 2 "é $x".toList = some front ∧ slice? 2 5 "é $x".toList = some back ∧
          DocBlock.splitType "é $x".toList = some (String.ofList (trim front), back) := by
  have sign : tokens "\u00a0-." = [⟨.malformed (.float "-."), 2, ['-', '.']⟩, ⟨.finish, 4, []⟩] := by
    rw [tokens, tokensFrom_scan (c := '-') (l := .malformed (.float "-.")) (n := 1) (by rfl) (by rfl),
      tokensFrom_blank (by rfl)]
    rfl
  have failed : read "\u00a0-." = .error ⟨.malformed (.float "-."), 2⟩ := by
    rw [read, sign]
    rfl
  have name : tokens "é $x" = [⟨.name "é", 0, ['é']⟩] ++ [⟨.var "x", 3, ['$', 'x']⟩, ⟨.finish, 5, []⟩] := by
    rw [tokens, tokensFrom_scan (c := 'é') (l := .name "é") (n := 0) (by rfl) (by rfl),
      tokensFrom_scan (c := '$') (l := .var "x") (n := 1) (by rfl) (by decide), tokensFrom_blank (by rfl)]
    rfl
  have type : IsType (atoms maxDepth) (.name "é") [.name "é"] :=
    .single (.single (.operand (.closed (.base (.name "é")))))
  have front : readPrefix "é $x" = .ok (.name "é", 2) := readPrefix_of_spelled type name rfl
  obtain ⟨-, -, -, -, errors, -⟩ := lexing_keeps_to_places "\u00a0-."
  obtain ⟨-, -, -, -, -, cuts⟩ := lexing_keeps_to_places "é $x"
  exact ⟨⟨_, failed, rfl, (errors _ (.inl failed)).1⟩, front, cuts _ _ front⟩

end TypeHints.Hint
