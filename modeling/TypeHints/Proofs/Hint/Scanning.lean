import TypeHints.Hint.Scan
import TypeHints.Proofs.Text.Letter

/-!
# Scanning and what follows

A lexeme is decided by its own characters and a little of what stands behind them. `scan_follows`
says which other texts may stand there without a change: texts that the lexeme is closed by, what is
left of the old one when the text is cut, and the old one with more behind it, from a character on
that no number goes on with.
-/
namespace TypeHints.Hint
open Text Decimal

/-- Lexemes that a reader can take: no malformed text, no variable without a name, not the end. -/
def Lexeme.isLegible : Lexeme → Bool
  | .malformed _ | .finish => false
  | .var sigiled => sigiled ≠ ""
  | _ => true

/-- Whether a lexeme ends before the character, whatever stands behind it. -/
def Lexeme.closedBy : Lexeme → Char → Bool
  | .name _, c => !isNameChar c && c ≠ '\\'
  | .this, c | .var _, c => !isVariableChar c
  | .int _, c | .float _, c => !isNameChar c && c ≠ '.'
  | .mark m, c => !(m = .colon && c = ':') && !(m = .equal && c = '>')
  | _, _ => true

/-! ### Blanks are in no lexeme but a quoted text -/

theorem not_of_isNameStart {c : Char} (h : isNameStart c = true) :
    isBlank c = false ∧ c.isDigit = false := by
  have code : 65 ≤ c.toNat ∧ c.toNat ≤ 122 ∨ 128 ≤ c.toNat ∧ isBlank c = false := by
    simp only [isNameStart, Bool.or_eq_true, beq_iff_eq, Bool.and_eq_true, Bool.not_eq_true', isAscii,
      decide_eq_false_iff_not, Nat.not_lt] at h
    rcases h with (alpha | rfl) | high
    · have codes : 65 ≤ c.toNat ∧ c.toNat ≤ 90 ∨ 97 ≤ c.toNat ∧ c.toNat ≤ 122 := isAlpha_iff.mp alpha
      omega
    · decide
    · exact .inr high
  have digit : c.isDigit = false := by
    simp only [Char.isDigit, Bool.and_eq_false_iff, decide_eq_false_iff_not, UInt32.le_iff_toNat_le,
      ge_iff_le]
    simp
    omega
  refine ⟨?_, digit⟩
  rcases code with ⟨low, high⟩ | ⟨-, visible⟩
  · simp [isBlank, inRanges]
    omega
  · exact visible

theorem visible_of_isNameChar {c : Char} (h : isNameChar c = true) : isBlank c = false := by
  simp only [isNameChar, Bool.or_eq_true, beq_iff_eq] at h
  rcases h with (start | digit) | rfl
  · exact (not_of_isNameStart start).1
  · simp only [Char.isDigit, Bool.and_eq_true, decide_eq_true_eq, UInt32.le_iff_toNat_le,
      ge_iff_le] at digit
    simp at digit
    simp [isBlank, inRanges]
    omega
  · decide

theorem Lexeme.closedBy_of_isBlank {c : Char} (blank : isBlank c = true) (l : Lexeme) :
    l.closedBy c = true := by
  have name : isNameChar c = false :=
    Bool.eq_false_iff.mpr fun h => by rw [visible_of_isNameChar h] at blank; cases blank
  have sigiled : isVariableChar c = false :=
    Bool.eq_false_iff.mpr fun h => by rw [visible_of_isVariableChar h] at blank; cases blank
  have other (d : Char) (visible : isBlank d = false) : c ≠ d := by
    rintro rfl
    rw [visible] at blank
    cases blank
  cases l <;>
    simp [closedBy, name, sigiled, other ':' rfl, other '>' rfl, other '.' rfl, other '\\' rfl]

/-- Characters that are no part of any number, whatever they stand between. -/
def endsNumber (b : Char) : Bool := !isNameChar b && b ≠ '.' && b ≠ '+'

theorem endsNumber_iff {b : Char} :
    endsNumber b = true ↔ isNameChar b = false ∧ b ≠ '.' ∧ b ≠ '+' := by
  simp [endsNumber, and_assoc]

theorem endsNumber_of_isBlank {b : Char} (blank : isBlank b = true) : endsNumber b = true := by
  have other (d : Char) (visible : isBlank d = false) : b ≠ d := by
    rintro rfl
    rw [visible] at blank
    cases blank
  have name : isNameChar b = false :=
    Bool.eq_false_iff.mpr fun h => by rw [visible_of_isNameChar h] at blank; cases blank
  exact endsNumber_iff.mpr ⟨name, other '.' rfl, other '+' rfl⟩

/-! ### What may follow instead -/

/-- What may stand behind the lexeme in place of `back`: a text that closes it, a cut of `back` that is
no cut between two points, or `back` with more behind that neither a number nor, if nothing stands
between, the lexeme goes on with. -/
inductive Follows (l : Lexeme) (back : List Char) : List Char → Prop
  | closed {after : List Char} (bar : Barred (fun c => !l.closedBy c) after) : Follows l back after
  | cut {after : List Char} (front : after <+: back) (pair : after ≠ ['.']) : Follows l back after
  | longer {b : Char} (ends : endsNumber b = true) (closed : back = [] → l.closedBy b = true)
      (more : List Char) : Follows l back (back ++ b :: more)

theorem follows_nil (l : Lexeme) (back : List Char) : Follows l back [] := .closed (barred_nil _)

/-- What bars the old text bars the new one, if it holds of characters that go on only. -/
theorem Follows.barred {l : Lexeme} {back after : List Char} (h : Follows l back after)
    {p : Char → Bool} (old : Barred p back) (goesOn : ∀ c, p c = true → l.closedBy c = false) :
    Barred p after := by
  cases h with
  | closed bar => exact bar.imp fun c inside => by simp [goesOn c inside]
  | cut front _ => exact barred_of_isPrefix front old
  | @longer b ends closed more =>
    cases back with
    | cons c rest => simpa using old
    | nil =>
      refine barred_cons.mpr (Bool.eq_false_iff.mpr fun inside => ?_)
      have goes := goesOn b inside
      rw [closed rfl] at goes
      cases goes

/-! ### Names, variables and quoted texts -/

theorem takeName_follows {inside : Bool} {cs after : List Char}
    (h : Barred (fun c => isNameChar c || c = '\\') after) :
    takeName inside (takeName inside cs ++ after) = takeName inside cs := by
  have stop : ∀ inside, takeName inside after = [] := by
    intro inside
    cases after with
    | nil => cases inside <;> rfl
    | cons c rest =>
      simp only [barred_cons, Bool.or_eq_false_iff, decide_eq_false_iff_not] at h
      have start : isNameStart c = false := by
        have := h.1; simp only [isNameChar, Bool.or_eq_false_iff] at this; exact this.1.1
      cases inside <;> simp [takeName, start, h.1, h.2]
  fun_induction takeName inside cs with
  | case1 => simp [stop]
  | case2 c rest begins ih => simp [takeName, begins, ih]
  | case3 => simp [stop]
  | case4 c rest goes ih => simp [takeName, goes, ih]
  | case5 rest goes ih => simp [takeName, goes, ih]
  | case6 => simp [stop]

theorem take_length_takeName (inside : Bool) (cs : List Char) :
    cs.take (takeName inside cs).length = takeName inside cs := by
  fun_induction takeName inside cs <;> simp_all

theorem of_mem_takeName {inside : Bool} {cs : List Char} {d : Char} (h : d ∈ takeName inside cs) :
    isNameChar d = true ∨ d = '\\' := by
  fun_induction takeName inside cs with
  | case1 | case3 | case6 => cases h
  | case2 c rest start ih =>
    rcases List.mem_cons.mp h with rfl | later
    · exact .inl (by simp [isNameChar, start])
    · exact ih later
  | case4 c rest go ih =>
    rcases List.mem_cons.mp h with rfl | later
    · exact .inl go
    · exact ih later
  | case5 rest stop ih =>
    rcases List.mem_cons.mp h with rfl | later
    · exact .inr rfl
    · exact ih later

theorem takeName_back {inside : Bool} {cs : List Char} (ended : inside = true ∨ takeName inside cs ≠ [])
    (whole : (takeName inside cs).getLast? ≠ some '\\') :
    Barred (fun c => isNameChar c || c = '\\') (cs.drop (takeName inside cs).length) := by
  fun_induction takeName inside cs with
  | case1 => simpa using barred_nil _
  | case2 c rest begins ih =>
    refine ih (.inl rfl) fun last => whole ?_
    rw [List.getLast?_cons, last]; rfl
  | case3 => simp at ended
  | case4 c rest goes ih =>
    refine ih (.inl rfl) fun last => whole ?_
    rw [List.getLast?_cons, last]; rfl
  | case5 rest goes ih =>
    have more : takeName false rest ≠ [] := by
      intro none
      rw [none] at whole
      exact whole rfl
    refine ih (.inr more) fun last => whole ?_
    rw [List.getLast?_cons, last]; rfl
  | case6 c rest stops slash => simp [stops, slash]

theorem takeQuoted_take {q : Char} {rest out : List Char} {n : Nat}
    (h : takeQuoted q rest = some (out, n)) (after : List Char) :
    takeQuoted q (rest.take n ++ after) = some (out, n) := by
  fun_induction takeQuoted q rest generalizing out n with
  | case1 => simp at h
  | case2 rest =>
    obtain ⟨rfl, rfl⟩ := by simpa using h
    unfold takeQuoted; simp
  | case3 => simp at h
  | case4 e rest different ih =>
    obtain ⟨out', n', read, rfl, rfl⟩ := by simpa using h
    unfold takeQuoted; simp [different, ih read]
  | case5 c rest other plain ih =>
    obtain ⟨out', n', read, rfl, rfl⟩ := by simpa using h
    unfold takeQuoted; simp [other, plain, ih read]

/-! ### Numbers -/

theorem isNameChar_of_isDigitOrGap {c : Char} (h : isDigitOrGap c = true) : isNameChar c = true := by
  simp only [isDigitOrGap, isNameChar, isNameStart, Bool.or_eq_true] at h ⊢
  rcases h with h | h <;> simp [h]

theorem isNameChar_of_isHexDigit {c : Char} (h : isHexDigit c = true) : isNameChar c = true := by
  simp only [isHexDigit, Bool.or_eq_true, Bool.and_eq_true, decide_eq_true_eq, Char.le_def] at h
  simp only [isNameChar, isNameStart, Bool.or_eq_true, isAlpha_iff]
  rcases h with (h | ⟨low, high⟩) | ⟨low, high⟩
  · exact .inl (.inr h)
  · exact .inl (.inl (.inl (.inl (.inr ⟨low, UInt32.le_trans high (by decide)⟩))))
  · exact .inl (.inl (.inl (.inl (.inl ⟨low, UInt32.le_trans high (by decide)⟩))))

theorem takeFraction_cases (cs : List Char) :
    takeFraction cs = [] ∨ ∃ digits back, cs = '.' :: (digits ++ back) ∧
      takeFraction cs = '.' :: digits ∧ (digits ++ back).head? ≠ some '.' ∧
      (∀ d ∈ digits, isDigitOrGap d = true) ∧ Barred isDigitOrGap back := by
  unfold takeFraction
  split
  next rest =>
    split
    · exact .inl rfl
    next single =>
      refine .inr ⟨rest.takeWhile isDigitOrGap, rest.dropWhile isDigitOrGap, ?_, rfl, ?_,
        takeWhile_inside _ _, barred_dropWhile _ _⟩
      · rw [List.takeWhile_append_dropWhile]
      · rwa [List.takeWhile_append_dropWhile]
  · exact .inl rfl

theorem takeFraction_point {digits after : List Char} (single : (digits ++ after).head? ≠ some '.')
    (inside : ∀ d ∈ digits, isDigitOrGap d = true) (stop : Barred isDigitOrGap after) :
    takeFraction ('.' :: (digits ++ after)) = '.' :: digits := by
  simp only [takeFraction, single, if_false, takeWhile_append_barred inside stop]

theorem takeExponent_cases (cs : List Char) :
    takeExponent cs = [] ∨ ∃ e sign digits back, cs = e :: (sign ++ (digits ++ back)) ∧
      takeExponent cs = e :: (sign ++ digits) ∧ (e = 'e' ∨ e = 'E') ∧
      (sign = [] ∨ sign = ['+'] ∨ sign = ['-']) ∧ digits ≠ [] ∧
      (∀ d ∈ digits, d.isDigit = true) ∧ Barred Char.isDigit back := by
  cases cs with
  | nil => exact .inl rfl
  | cons e rest =>
    let sign := if rest.head? = some '+' || rest.head? = some '-' then rest.take 1 else []
    let body := if rest.head? = some '+' || rest.head? = some '-' then rest.tail else rest
    have text : takeExponent (e :: rest) =
        if (e = 'e' ∨ e = 'E') ∧ body.takeWhile Char.isDigit ≠ [] then
          e :: (sign ++ body.takeWhile Char.isDigit) else [] := by
      simp only [takeExponent, Bool.or_eq_true, decide_eq_true_eq, sign, body]
    have split : sign ++ body = rest := by
      simp only [sign, body]
      split
      · cases rest <;> simp
      · rfl
    by_cases counts : (e = 'e' ∨ e = 'E') ∧ body.takeWhile Char.isDigit ≠ []
    · refine .inr ⟨e, sign, body.takeWhile Char.isDigit, body.dropWhile Char.isDigit, ?_, ?_,
        counts.1, ?_, counts.2, takeWhile_inside _ _, barred_dropWhile _ _⟩
      · rw [List.takeWhile_append_dropWhile, split]
      · rw [text, if_pos counts]
      · simp only [sign]
        cases rest with
        | nil => simp
        | cons c rest =>
          by_cases plus : c = '+'
          · simp [plus]
          · by_cases minus : c = '-' <;> simp [plus, minus]
    · exact .inl (by rw [text, if_neg counts])

theorem takeExponent_letter {e : Char} {sign digits after : List Char} (letter : e = 'e' ∨ e = 'E')
    (signed : sign = [] ∨ sign = ['+'] ∨ sign = ['-']) (some : digits ≠ [])
    (inside : ∀ d ∈ digits, d.isDigit = true) (stop : Barred Char.isDigit after) :
    takeExponent (e :: (sign ++ (digits ++ after))) = e :: (sign ++ digits) := by
  have run := takeWhile_append_barred inside stop
  rcases signed with rfl | rfl | rfl
  · obtain ⟨d, rest, rfl⟩ := List.exists_cons_of_ne_nil some
    have digit := inside d (by simp)
    have plus : d ≠ '+' := by rintro rfl; exact absurd digit (by decide)
    have minus : d ≠ '-' := by rintro rfl; exact absurd digit (by decide)
    simp only [List.cons_append] at run
    simp [takeExponent, plus, minus, letter, run]
  · simp [takeExponent, letter, run, some]
  · simp [takeExponent, letter, run, some]

theorem takeFraction_of_isPrefix {back after : List Char} (cut : after <+: back)
    (pair : after ≠ ['.']) (none : takeFraction back = []) : takeFraction after = [] := by
  obtain ⟨tail, rfl⟩ := cut
  cases after with
  | nil => rfl
  | cons c rest =>
    by_cases point : c = '.'
    · subst point
      cases rest with
      | nil => exact absurd rfl pair
      | cons d rest =>
        by_cases second : d = '.'
        · simp [takeFraction, second]
        · simp [takeFraction, second] at none
    · simp [takeFraction, point]

theorem takeExponent_of_isPrefix {back after : List Char} (cut : after <+: back)
    (none : takeExponent back = []) : takeExponent after = [] := by
  obtain ⟨tail, rfl⟩ := cut
  rcases takeExponent_cases after with same | ⟨e, sign, digits, back, rfl, -, letter, signed, some, inside, -⟩
  · exact same
  · have longer : takeExponent (e :: (sign ++ (digits ++ back) ++ tail)) =
        e :: (sign ++ (digits ++ (back ++ tail).takeWhile Char.isDigit)) := by
      have run : ∀ d ∈ digits ++ (back ++ tail).takeWhile Char.isDigit, d.isDigit = true := by
        intro d member
        rcases List.mem_append.mp member with old | new
        · exact inside d old
        · exact takeWhile_inside _ _ d new
      rw [← takeExponent_letter letter signed (by simp [some]) run
        (barred_dropWhile Char.isDigit (back ++ tail))]
      simp [List.takeWhile_append_dropWhile]
    rw [List.cons_append, longer] at none
    exact absurd none (by simp)

def Lexeme.isNumber : Lexeme → Bool
  | .int _ | .float _ => true
  | _ => false

theorem closedBy_of_isNumber {l : Lexeme} (h : l.isNumber = true) (c : Char) :
    l.closedBy c = (!isNameChar c && c ≠ '.') := by
  cases l <;> simp_all [Lexeme.isNumber, Lexeme.closedBy]

theorem takeFraction_longer {back : List Char} (none : takeFraction back = []) {b : Char}
    (ends : endsNumber b = true) (more : List Char) : takeFraction (back ++ b :: more) = [] := by
  have point : b ≠ '.' := (endsNumber_iff.mp ends).2.1
  match back with
  | [] => simp [takeFraction, point]
  | [c] =>
    by_cases first : c = '.'
    · subst first
      cases none
    · simp [takeFraction, first]
  | c :: d :: rest =>
    by_cases first : c = '.'
    · subst first
      by_cases second : d = '.'
      · simp [takeFraction, second]
      · simp [takeFraction, second] at none
    · simp [takeFraction, first]

theorem word_before {word stop back more : List Char} {b : Char}
    (text : word ++ stop = back ++ b :: more) (absent : b ∉ word) :
    ∃ tail, back = word ++ tail ∧ stop = tail ++ b :: more := by
  rcases List.append_eq_append_iff.mp text with ⟨tail, front, behind⟩ | ⟨tail, front, behind⟩
  · exact ⟨tail, front, behind⟩
  · cases tail with
    | nil => exact ⟨[], by simpa using front.symm, by simpa using behind.symm⟩
    | cons c tail =>
      obtain rfl : b = c := (List.cons.inj behind).1
      exact absurd (by simp [front]) absent

theorem takeExponent_longer {back : List Char} (none : takeExponent back = []) {b : Char}
    (ends : endsNumber b = true) (more : List Char) : takeExponent (back ++ b :: more) = [] := by
  obtain ⟨noName, -, plus⟩ := endsNumber_iff.mp ends
  rcases takeExponent_cases (back ++ b :: more) with
    same | ⟨e, sign, digits, stop, text, -, letter, signed, some, inside, bar⟩
  · exact same
  · have part : ∀ c ∈ e :: (sign ++ digits), isNameChar c = true ∨ c = '+' := by
      refine List.forall_mem_cons.mpr ⟨.inl (by rcases letter with rfl | rfl <;> rfl), ?_⟩
      refine List.forall_mem_append.mpr ⟨?_, fun c digit => .inl ?_⟩
      · rcases signed with rfl | rfl | rfl <;> simp
        rfl
      · simp [isNameChar, inside c digit]
    have absent : b ∉ e :: (sign ++ digits) := by
      intro member
      rcases part b member with name | same
      · rw [noName] at name
        cases name
      · exact plus same
    obtain ⟨tail, rfl, rfl⟩ := word_before (by simpa using text.symm) absent
    have stops : Barred Char.isDigit tail := barred_of_isPrefix (List.prefix_append _ _) bar
    have again := takeExponent_letter letter signed some inside stops
    rw [List.cons_append, List.append_assoc, again] at none
    cases none

section
variable {l : Lexeme} {back after : List Char} (number : l.isNumber = true)
  (h : Follows l back after)
include number h

theorem follows_takeFraction (none : takeFraction back = []) : takeFraction after = [] := by
  cases h with
  | closed bar =>
    cases after with
    | nil => rfl
    | cons c rest =>
      simp [closedBy_of_isNumber number] at bar
      simp [takeFraction, bar.2]
  | cut front pair => exact takeFraction_of_isPrefix front pair none
  | longer ends _ more => exact takeFraction_longer none ends more

theorem follows_takeExponent (none : takeExponent back = []) : takeExponent after = [] := by
  cases h with
  | closed bar =>
    rcases takeExponent_cases after with same | ⟨e, _, _, _, rfl, -, letter, -⟩
    · exact same
    · simp [closedBy_of_isNumber number] at bar
      rcases letter with rfl | rfl <;> exact absurd bar.1 (by decide)
  | cut front _ => exact takeExponent_of_isPrefix front none
  | longer ends _ more => exact takeExponent_longer none ends more

theorem follows_barred {p : Char → Bool} (old : Barred p back)
    (goesOn : ∀ c, p c = true → isNameChar c = true ∨ c = '.') : Barred p after :=
  h.barred old fun c inside => by
    rw [closedBy_of_isNumber number]
    rcases goesOn c inside with name | rfl
    · simp [name]
    · decide

theorem exponent_follows {x : List Char} (read : takeExponent (x ++ back) = x) :
    takeExponent (x ++ after) = x := by
  rcases takeExponent_cases (x ++ back) with none | ⟨e, sign, digits, stop, text, same, letter, signed, some, inside, bar⟩
  · rw [none] at read
    subst read
    exact follows_takeExponent number h none
  · rw [read] at same
    subst same
    obtain rfl : back = stop := by simpa using text
    have bar := follows_barred number h bar fun c digit => .inl (by simp [isNameChar, digit])
    simpa using takeExponent_letter letter signed some inside bar

theorem exponent_follows_barred {x : List Char} {p : Char → Bool} (old : Barred p (x ++ back))
    (goesOn : ∀ c, p c = true → isNameChar c = true ∨ c = '.') : Barred p (x ++ after) := by
  cases x with
  | nil => exact follows_barred number h old goesOn
  | cons c rest => simpa using old

theorem fraction_follows {f x : List Char} (exponent : takeExponent (x ++ back) = x)
    (read : takeFraction (f ++ (x ++ back)) = f) : takeFraction (f ++ (x ++ after)) = f := by
  rcases takeFraction_cases (f ++ (x ++ back)) with none | ⟨digits, stop, text, same, single, inside, bar⟩
  · rw [none] at read
    subst read
    cases x with
    | nil => exact follows_takeFraction number h none
    | cons e rest =>
      have letter : e ≠ '.' := by
        rintro rfl
        rcases takeExponent_cases ('.' :: rest ++ back) with same | ⟨e, _, _, _, text, _, letter, -⟩
        · rw [same] at exponent; exact absurd exponent (by simp)
        · have := (List.cons.inj text).1
          rcases letter with rfl | rfl <;> exact absurd this (by decide)
      simp [takeFraction, letter]
  · rw [read] at same
    subst same
    obtain rfl : x ++ back = stop := by simpa using text
    have bar := exponent_follows_barred number h bar fun c digit =>
      .inl (isNameChar_of_isDigitOrGap digit)
    refine takeFraction_point ?_ inside bar
    cases digits with
    | nil =>
      have old : Barred (· = '.') (x ++ back) := fun c member =>
        decide_eq_false fun point => single (by simpa [point] using member)
      have new := exponent_follows_barred number h old fun c point =>
        .inr (by simpa using point)
      intro point
      simpa using new '.' point
    | cons d rest => simpa using single

end

structure IsDecimal (whole fraction exponent tail : List Char) : Prop where
  takeWhole : (whole ++ (fraction ++ (exponent ++ tail))).takeWhile isDigitOrGap = whole
  dropWhole : (whole ++ (fraction ++ (exponent ++ tail))).dropWhile isDigitOrGap =
    fraction ++ (exponent ++ tail)
  readFraction : takeFraction (fraction ++ (exponent ++ tail)) = fraction
  readExponent : takeExponent (exponent ++ tail) = exponent

theorem exists_isDecimal (body : List Char) : ∃ whole fraction exponent tail,
    body = whole ++ (fraction ++ (exponent ++ tail)) ∧ IsDecimal whole fraction exponent tail := by
  have front {take : List Char → List Char} {cs : List Char}
      (h : take cs = [] ∨ ∃ tail, cs = take cs ++ tail) : ∃ tail, cs = take cs ++ tail := by
    rcases h with none | some
    · exact ⟨cs, by simp [none]⟩
    · exact some
  obtain ⟨rest, hrest⟩ : ∃ rest, body.dropWhile isDigitOrGap = takeFraction _ ++ rest :=
    front ((takeFraction_cases _).imp_right fun ⟨digits, back, text, read, _⟩ =>
      ⟨back, by rw [read]; simpa using text⟩)
  obtain ⟨tail, htail⟩ : ∃ tail, rest = takeExponent rest ++ tail :=
    front ((takeExponent_cases _).imp_right fun ⟨e, sign, digits, back, text, read, _⟩ =>
      ⟨back, by rw [read]; simpa using text⟩)
  rw [htail] at hrest
  have text : body = body.takeWhile isDigitOrGap ++ (takeFraction (body.dropWhile isDigitOrGap) ++
      (takeExponent rest ++ tail)) := by
    rw [← hrest, List.takeWhile_append_dropWhile]
  exact ⟨_, _, _, tail, text, by rw [← text], by rw [← text, ← hrest], by rw [← hrest], by rw [← htail]⟩

theorem IsDecimal.follows {l : Lexeme} {whole fraction exponent back after : List Char}
    (number : l.isNumber = true) (h : Follows l back after)
    (parts : IsDecimal whole fraction exponent back) : IsDecimal whole fraction exponent after := by
  have inside : ∀ c ∈ whole, isDigitOrGap c = true := parts.takeWhole ▸ takeWhile_inside _ _
  have bar : Barred isDigitOrGap (fraction ++ (exponent ++ after)) := by
    have old : Barred isDigitOrGap (fraction ++ (exponent ++ back)) :=
      parts.dropWhole ▸ barred_dropWhile _ _
    cases fraction with
    | nil =>
      exact exponent_follows_barred number h old fun c digit =>
        .inl (isNameChar_of_isDigitOrGap digit)
    | cons c tail => simpa using old
  exact ⟨takeWhile_append_barred inside bar, dropWhile_append_barred inside bar,
    fraction_follows number h parts.readExponent parts.readFraction,
    exponent_follows number h parts.readExponent⟩

/-- A sign in front of `body`; without one, the body does not begin like one. -/
def IsSign (sign body : List Char) : Prop := sign = ['-'] ∨ (sign = [] ∧ body.head? ≠ some '-')

theorem exists_sign (cs : List Char) : ∃ sign body, cs = sign ++ body ∧ IsSign sign body := by
  by_cases minus : cs.head? = some '-'
  · obtain ⟨rest, rfl⟩ := List.head?_eq_some_iff.mp minus
    exact ⟨['-'], rest, rfl, .inl rfl⟩
  · exact ⟨[], cs, rfl, .inr ⟨rfl, minus⟩⟩

def isHexMarked (body : List Char) : Bool := body.take 2 = ['0', 'x'] || body.take 2 = ['0', 'X']

theorem numberLexeme_hex {sign digits tail : List Char} {x : Char} (signed : sign = ['-'] ∨ sign = [])
    (mark : x = 'x' ∨ x = 'X') (inside : ∀ c ∈ digits, (isHexDigit c || c == '_') = true)
    (stop : Barred (fun c => isHexDigit c || c == '_') tail) :
    numberLexeme (sign ++ '0' :: x :: (digits ++ tail)) =
      (hexLexeme (sign = ['-']) (sign ++ '0' :: x :: digits) digits,
        (sign ++ '0' :: x :: digits).length) := by
  have run := takeWhile_append_barred inside stop
  rcases signed with rfl | rfl <;> rcases mark with rfl | rfl <;> simp [numberLexeme, run]

def decimalLexeme (sign whole fraction exponent : List Char) : Lexeme :=
  let plain := (sign ++ whole ++ fraction ++ exponent).filter (· != '_')
  if fraction.isEmpty && exponent.isEmpty then
    integerLexeme (sign = ['-']) plain (whole.filter Char.isDigit)
  else floatLexeme (sign = ['-']) plain whole fraction exponent

theorem numberLexeme_decimal {sign whole fraction exponent tail : List Char}
    (signed : IsSign sign (whole ++ (fraction ++ (exponent ++ tail))))
    (decimal : isHexMarked (whole ++ (fraction ++ (exponent ++ tail))) = false)
    (parts : IsDecimal whole fraction exponent tail) :
    numberLexeme (sign ++ (whole ++ (fraction ++ (exponent ++ tail)))) =
      (decimalLexeme sign whole fraction exponent,
        (sign ++ whole ++ fraction ++ exponent).length) := by
  simp only [isHexMarked] at decimal
  have drop : (fraction ++ (exponent ++ tail)).drop fraction.length = exponent ++ tail := by simp
  rcases signed with rfl | ⟨rfl, plain⟩
  · simp only [numberLexeme, List.cons_append, List.nil_append, List.head?_cons, decide_true,
      if_true, List.tail_cons, decimal, Bool.false_eq_true, if_false, parts.takeWhole, parts.dropWhole,
      parts.readFraction, drop, parts.readExponent, decimalLexeme]
    split <;> rfl
  · simp only [numberLexeme, List.nil_append, plain, decide_false, Bool.false_eq_true, if_false,
      decimal, parts.takeWhole, parts.dropWhole, parts.readFraction, drop, parts.readExponent, decimalLexeme]
    split <;> simp

theorem isHexMarked_follows {l : Lexeme} {text back after : List Char} (number : l.isNumber = true)
    (h : Follows l back after) (some : text ≠ []) (decimal : isHexMarked (text ++ back) = false) :
    isHexMarked (text ++ after) = false := by
  match text with
  | [c] =>
    by_cases zero : c = '0'
    · subst zero
      have old : Barred (fun c => c = 'x' || c = 'X') back := by
        cases back with
        | nil => exact barred_nil _
        | cons d rest => simpa [isHexMarked] using decimal
      have new := follows_barred number h old fun c marks => by
        simp only [Bool.or_eq_true, decide_eq_true_eq] at marks
        rcases marks with rfl | rfl <;> decide
      cases after with
      | nil => rfl
      | cons d rest => simpa [isHexMarked] using new
    · simp [isHexMarked, zero]
  | c :: d :: rest => simpa [isHexMarked] using decimal

theorem IsSign.follows {sign text back : List Char} (h : IsSign sign (text ++ back)) (some : text ≠ [])
    (after : List Char) : IsSign sign (text ++ after) := by
  refine h.imp_right fun ⟨plain, head⟩ => ⟨plain, ?_⟩
  obtain ⟨c, rest, rfl⟩ := List.exists_cons_of_ne_nil some
  simpa using head

theorem exists_hex {body : List Char} (h : isHexMarked body = true) : ∃ x digits tail,
    body = '0' :: x :: (digits ++ tail) ∧ (x = 'x' ∨ x = 'X') ∧
      (∀ c ∈ digits, (isHexDigit c || c == '_') = true) ∧
      Barred (fun c => isHexDigit c || c == '_') tail := by
  match body with
  | [] | [_] => simp [isHexMarked] at h
  | c :: x :: rest =>
    obtain ⟨rfl, mark⟩ : c = '0' ∧ (x = 'x' ∨ x = 'X') := by
      simp only [isHexMarked, List.take_succ_cons, List.take_zero, List.cons.injEq, and_true,
        Bool.or_eq_true, decide_eq_true_eq, ← and_or_left] at h
      exact h
    refine ⟨x, _, _, ?_, mark, takeWhile_inside _ rest, barred_dropWhile _ rest⟩
    rw [List.takeWhile_append_dropWhile]

theorem numberLexeme_follows {cs after : List Char} {l : Lexeme} {k : Nat}
    (read : numberLexeme cs = (l, k)) (number : l.isNumber = true) (h : Follows l (cs.drop k) after) :
    numberLexeme (cs.take k ++ after) = (l, k) := by
  obtain ⟨sign, body, rfl, signed⟩ := exists_sign cs
  cases hex : isHexMarked body with
  | true =>
    obtain ⟨x, digits, back, rfl, mark, inside, stop⟩ := exists_hex hex
    have plain := signed.imp_right And.left
    rw [numberLexeme_hex plain mark inside stop] at read
    obtain ⟨same, rfl⟩ := Prod.mk.inj read
    have text : sign ++ '0' :: x :: (digits ++ back) = (sign ++ '0' :: x :: digits) ++ back := by simp
    rw [text, List.drop_left] at h
    have new := follows_barred number h stop fun c goes => by
      simp only [Bool.or_eq_true, beq_iff_eq] at goes
      rcases goes with digit | rfl
      · exact .inl (isNameChar_of_isHexDigit digit)
      · exact .inl (by decide)
    rw [text, List.take_left, ← same, ← numberLexeme_hex plain mark inside new]
    simp
  | false =>
    obtain ⟨whole, fraction, exponent, back, rfl, parts⟩ := exists_isDecimal body
    rw [numberLexeme_decimal signed hex parts] at read
    obtain ⟨same, rfl⟩ := Prod.mk.inj read
    have text {tail : List Char} : sign ++ (whole ++ (fraction ++ (exponent ++ tail))) =
        (sign ++ whole ++ fraction ++ exponent) ++ tail := by simp
    rw [text, List.drop_left] at h
    have some : whole ++ (fraction ++ exponent) ≠ [] := by
      intro none
      simp only [List.append_eq_nil_iff] at none
      obtain ⟨rfl, rfl, rfl⟩ := none
      simp [← same, decimalLexeme, integerLexeme, Lexeme.isNumber] at number
    have regroup {tail : List Char} : whole ++ (fraction ++ (exponent ++ tail)) =
        (whole ++ (fraction ++ exponent)) ++ tail := by simp
    have signed' := (regroup ▸ signed).follows some after
    have hex' := isHexMarked_follows number h some (regroup ▸ hex)
    rw [text, List.take_left, ← same, ← text,
      numberLexeme_decimal (regroup ▸ signed') (regroup ▸ hex') (parts.follows number h)]

/-! ### One lexeme -/

theorem isLegible_nameLexeme {text : List Char} (h : (nameLexeme text).isLegible = true) :
    text.getLast? ≠ some '\\' ∧ nameLexeme text = .name (String.ofList text) := by
  unfold nameLexeme at h ⊢
  split at h
  · simp [Lexeme.isLegible] at h
  next whole => exact ⟨whole, if_neg whole⟩

theorem variableLexeme_follows {rest after : List Char} {l : Lexeme} {n : Nat}
    (read : variableLexeme rest = (l, n)) (legible : l.isLegible = true)
    (h : Follows l (rest.drop n) after) : variableLexeme (rest.take n ++ after) = (l, n) := by
  match rest with
  | [] =>
    obtain ⟨rfl, rfl⟩ := Prod.mk.inj read
    simp [Lexeme.isLegible] at legible
  | c :: rest =>
    simp only [variableLexeme] at read
    split at read
    next begins =>
      obtain ⟨same, rfl⟩ := Prod.mk.inj read
      have closed : ∀ d, l.closedBy d = !isVariableChar d := by
        rw [← same]; split <;> exact fun _ => rfl
      rw [drop_length_takeWhile] at h
      have new : Barred isVariableChar after :=
        h.barred (barred_dropWhile _ _) fun d inside => by rw [closed, inside]; rfl
      have split := List.takeWhile_append_dropWhile (p := isVariableChar) (l := c :: rest)
      have inside := takeWhile_inside isVariableChar (c :: rest)
      revert same split inside
      generalize (c :: rest).takeWhile isVariableChar = name
      intro same split inside
      have some : name ≠ [] := by
        rintro rfl
        rw [← same] at legible
        exact absurd legible (by decide)
      obtain ⟨d, tail, rfl⟩ := List.exists_cons_of_ne_nil some
      obtain rfl : d = c := (List.cons.inj split).1
      rw [← split, List.take_left]
      have run := takeWhile_append_barred inside new
      simp only [List.cons_append] at run ⊢
      simp only [variableLexeme, begins, if_true, run, same]
    next =>
      obtain ⟨rfl, rfl⟩ := Prod.mk.inj read
      simp [Lexeme.isLegible] at legible

theorem quotedLexeme_take {q : Char} {rest : List Char} {l : Lexeme} {n : Nat}
    (read : quotedLexeme q rest = (l, n)) (legible : l.isLegible = true) (after : List Char) :
    quotedLexeme q (rest.take n ++ after) = (l, n) := by
  unfold quotedLexeme at read
  split at read
  next out m closed =>
    obtain ⟨rfl, rfl⟩ := Prod.mk.inj read
    simp [quotedLexeme, takeQuoted_take closed after]
  next =>
    obtain ⟨rfl, rfl⟩ := Prod.mk.inj read
    simp [Lexeme.isLegible] at legible

theorem nameLexeme_follows {inside : Bool} {c : Char} {rest after : List Char} {l : Lexeme} {n : Nat}
    (read : (nameLexeme (c :: takeName inside rest), (c :: takeName inside rest).length - 1) = (l, n))
    (legible : l.isLegible = true) (ended : inside = true ∨ c = '\\')
    (h : Follows l (rest.drop n) after) :
    takeName inside (rest.take n ++ after) = takeName inside rest := by
  obtain ⟨rfl, rfl⟩ := Prod.mk.inj read
  obtain ⟨whole, same⟩ := isLegible_nameLexeme legible
  rw [List.length_cons, Nat.add_sub_cancel] at h ⊢
  have more : inside = true ∨ takeName inside rest ≠ [] := by
    refine ended.imp_right fun slash none => whole ?_
    rw [none, slash]; rfl
  have bar : (takeName inside rest).getLast? ≠ some '\\' := fun last => whole (by
    rw [List.getLast?_cons, last]; rfl)
  rw [take_length_takeName]
  refine takeName_follows (h.barred (takeName_back more bar) fun d goes => ?_)
  simp only [Bool.or_eq_true, decide_eq_true_eq] at goes
  rw [same]
  rcases goes with name | rfl
  · simp [Lexeme.closedBy, name]
  · simp [Lexeme.closedBy]

def beginsNumber (c : Char) (rest : List Char) : Bool :=
  c.isDigit || (c == '.' && rest.head?.any Char.isDigit) ||
    (c == '-' && rest.head?.any fun d => d.isDigit || d == '.')

theorem numberLexeme_cases (cs : List Char) :
    (numberLexeme cs).1.isNumber = true ∨ ∃ what, (numberLexeme cs).1 = .malformed what := by
  obtain ⟨sign, body, rfl, signed⟩ := exists_sign cs
  cases hex : isHexMarked body with
  | true =>
    obtain ⟨x, digits, back, rfl, mark, inside, stop⟩ := exists_hex hex
    rw [numberLexeme_hex (signed.imp_right And.left) mark inside stop]
    simp only [hexLexeme]
    split <;> simp [Lexeme.isNumber]
  | false =>
    obtain ⟨whole, fraction, exponent, back, rfl, parts⟩ := exists_isDecimal body
    rw [numberLexeme_decimal signed hex parts]
    simp only [decimalLexeme, integerLexeme, floatLexeme]
    split <;> split <;> simp [Lexeme.isNumber]

theorem isNumber_numberLexeme {cs : List Char} {l : Lexeme} {k : Nat}
    (read : numberLexeme cs = (l, k)) (legible : l.isLegible = true) : l.isNumber = true := by
  rcases numberLexeme_cases cs with number | ⟨what, same⟩
  · rwa [read] at number
  · rw [read] at same
    subst same
    exact absurd legible (by simp [Lexeme.isLegible])

theorem two_le_numberLexeme_point {d : Char} {rest : List Char} (digit : d.isDigit = true) :
    2 ≤ (numberLexeme ('.' :: d :: rest)).2 := by
  have point : d ≠ '.' := by rintro rfl; exact absurd digit (by decide)
  have zero : isDigitOrGap d = true := by simp [isDigitOrGap, digit]
  simp [numberLexeme, isDigitOrGap, takeFraction, point, digit]

theorem isLegible_numberLexeme_minus {rest : List Char} (single : (numberLexeme ('-' :: rest)).2 ≤ 1) :
    (numberLexeme ('-' :: rest)).1.isLegible = false := by
  change (numberLexeme (['-'] ++ rest)).2 ≤ 1 at single
  change (numberLexeme (['-'] ++ rest)).1.isLegible = false
  cases hex : isHexMarked rest with
  | true =>
    obtain ⟨x, digits, back, rfl, mark, inside, stop⟩ := exists_hex hex
    rw [numberLexeme_hex (.inl rfl) mark inside stop] at single
    simp at single
  | false =>
    obtain ⟨whole, fraction, exponent, back, rfl, parts⟩ := exists_isDecimal rest
    rw [numberLexeme_decimal (.inl rfl) hex parts] at single ⊢
    have none : whole = [] ∧ fraction = [] ∧ exponent = [] := by
      simpa [← List.length_eq_zero_iff, and_assoc] using single
    obtain ⟨rfl, rfl, rfl⟩ := none
    rfl

theorem one_le_numberLexeme_digit {c : Char} {rest : List Char} (digit : c.isDigit = true) :
    1 ≤ (numberLexeme (c :: rest)).2 := by
  have minus : c ≠ '-' := by rintro rfl; exact absurd digit (by decide)
  simp only [numberLexeme, List.head?_cons, Option.some.injEq, minus, decide_false,
    if_false, List.nil_append]
  split
  next hex => cases rest <;> simp
  next => split <;> simp [isDigitOrGap, digit]

theorem numberLexeme_begins {c : Char} {rest : List Char} {l : Lexeme} {k : Nat}
    (begins : beginsNumber c rest = true) (read : numberLexeme (c :: rest) = (l, k))
    (legible : l.isLegible = true) :
    ∃ n, k = n + 1 ∧ ∀ after, beginsNumber c (rest.take n ++ after) = true := by
  cases digit : c.isDigit with
  | true =>
    have one : 1 ≤ (numberLexeme (c :: rest)).2 := one_le_numberLexeme_digit digit
    rw [read] at one
    exact ⟨k - 1, (Nat.sub_add_cancel one).symm, fun after => by simp [beginsNumber, digit]⟩
  | false =>
    have two : 2 ≤ (numberLexeme (c :: rest)).2 := by
      simp only [beginsNumber, digit, Bool.false_or, Bool.or_eq_true, Bool.and_eq_true, beq_iff_eq]
        at begins
      rcases begins with ⟨rfl, head⟩ | ⟨rfl, head⟩
      · cases rest with
        | nil => simp at head
        | cons d rest => exact two_le_numberLexeme_point (by simpa using head)
      · refine Nat.lt_of_not_le fun single => ?_
        have none := isLegible_numberLexeme_minus single
        rw [read, legible] at none
        exact absurd none (by simp)
    rw [read] at two
    obtain ⟨n, rfl⟩ : ∃ n, k = n + 2 := ⟨k - 2, (Nat.sub_add_cancel two).symm⟩
    refine ⟨n + 1, rfl, fun after => ?_⟩
    cases rest with
    | nil => simp [beginsNumber, digit] at begins
    | cons d rest => simpa [beginsNumber] using begins

theorem not_ellipsis_of_beginsNumber {c : Char} {rest : List Char} (h : beginsNumber c rest = true) :
    ¬ (c = '.' ∧ rest.take 2 = ['.', '.']) := by
  rintro ⟨rfl, points⟩
  cases rest with
  | nil => simp at points
  | cons d rest =>
    obtain rfl : d = '.' := by simpa using (List.cons.inj points).1
    revert h; simp [beginsNumber]

theorem beginsNumber_of_isNameStart {c : Char} (h : isNameStart c = true ∨ c = '\\')
    (old : c.isDigit = false) (rest : List Char) : beginsNumber c rest = false := by
  have point : c ≠ '.' := by rintro rfl; exact absurd h (by decide)
  have minus : c ≠ '-' := by rintro rfl; exact absurd h (by decide)
  simp [beginsNumber, old, point, minus]

theorem pair_follows {m : Mark} {d : Char} {rest after : List Char}
    (goesOn : (Lexeme.mark m).closedBy d = false) (plain : rest.head? ≠ some d)
    (h : Follows (.mark m) rest after) : after.head? ≠ some d := by
  have old : Barred (· = d) rest := fun c member =>
    decide_eq_false fun same => plain (same ▸ Option.mem_def.mp member)
  have new := h.barred old fun c same => by simpa [of_decide_eq_true same] using goesOn
  intro head
  simpa using new d head

theorem scan_follows {c : Char} {rest after : List Char} {l : Lexeme} {n : Nat}
    (read : scan c rest = (l, n)) (legible : l.isLegible = true) (h : Follows l (rest.drop n) after) :
    scan c (rest.take n ++ after) = (l, n) := by
  -- The branches of `scan` in their order; only where a lexeme could go on does `h` matter.
  unfold scan at read ⊢
  split at read
  · obtain ⟨rfl, rfl⟩ := Prod.mk.inj read
    rfl
  dsimp only
  split at read
  next colon =>
    rw [if_pos colon]
    split at read <;> obtain ⟨rfl, rfl⟩ := Prod.mk.inj read
    next double =>
      obtain ⟨tail, rfl⟩ := List.head?_eq_some_iff.mp double
      rfl
    next single => rw [List.take_zero, List.nil_append, if_neg (pair_follows (by decide) single h)]
  next noColon =>
  rw [if_neg noColon]
  split at read
  next equal =>
    rw [if_pos equal]
    split at read <;> obtain ⟨rfl, rfl⟩ := Prod.mk.inj read
    next arrow =>
      obtain ⟨tail, rfl⟩ := List.head?_eq_some_iff.mp arrow
      rfl
    next single => rw [List.take_zero, List.nil_append, if_neg (pair_follows (by decide) single h)]
  next noEqual =>
  rw [if_neg noEqual]
  split at read
  next points =>
    obtain ⟨rfl, rfl⟩ := Prod.mk.inj read
    rw [if_pos ⟨points.1, by rw [points.2]; rfl⟩]
  next =>
  split at read
  next dollar =>
    subst dollar
    rw [if_neg (by simp), if_pos rfl]
    exact variableLexeme_follows read legible h
  next noDollar =>
  split at read
  next quote =>
    rw [if_neg (by rcases quote with rfl | rfl <;> simp), if_neg noDollar, if_pos quote]
    exact quotedLexeme_take read legible after
  next noQuote =>
  split at read
  next begins =>
    cases number : numberLexeme (c :: rest) with
    | mk l' k =>
      rw [number] at read
      obtain ⟨rfl, rfl⟩ := Prod.mk.inj read
      obtain ⟨n, rfl, again⟩ := numberLexeme_begins begins number legible
      have isNumber := isNumber_numberLexeme number legible
      have more : numberLexeme (c :: (rest.take n ++ after)) = (l', n + 1) :=
        numberLexeme_follows number isNumber h
      rw [Nat.add_sub_cancel, if_neg (not_ellipsis_of_beginsNumber (again after)), if_neg noDollar,
        if_neg noQuote]
      exact (if_pos (again after)).trans (by rw [more, Nat.add_sub_cancel])
  next noNumber =>
  have digit : c.isDigit = false := by
    simp only [Bool.or_eq_true, not_or, Bool.not_eq_true] at noNumber
    exact noNumber.1.1
  have point (begins : isNameStart c = true ∨ c = '\\') : ¬ (c = '.' ∧
      (rest.take n ++ after).take 2 = ['.', '.']) := by
    rintro ⟨rfl, -⟩; exact absurd begins (by decide)
  have number (begins : isNameStart c = true ∨ c = '\\') :
      ¬ beginsNumber c (rest.take n ++ after) = true := by
    simp [beginsNumber_of_isNameStart begins digit]
  split at read
  next begins =>
    have again := nameLexeme_follows read legible (.inl rfl) h
    rw [if_neg (point (.inl begins)), if_neg noDollar, if_neg noQuote]
    refine (if_neg (number (.inl begins))).trans ?_
    rw [if_pos begins, again]
    exact read
  next noName =>
  split at read
  next slash =>
    have again := nameLexeme_follows read legible (.inr slash) h
    rw [if_neg (point (.inr slash)), if_neg noDollar, if_neg noQuote]
    refine (if_neg (number (.inr slash))).trans ?_
    rw [if_neg noName, if_pos slash, again]
    exact read
  next =>
    obtain ⟨rfl, rfl⟩ := Prod.mk.inj read
    simp [Lexeme.isLegible] at legible

/-! ### How much is scanned -/

theorem takeQuoted_le {q : Char} {rest out : List Char} {n : Nat}
    (h : takeQuoted q rest = some (out, n)) : n ≤ rest.length := by
  fun_induction takeQuoted q rest generalizing out n with
  | case1 => cases h
  | case2 =>
    cases h
    exact Nat.le_add_left 1 _
  | case3 => cases h
  | case4 e rest different ih =>
    obtain ⟨out', n', read, rfl, rfl⟩ := by simpa using h
    exact Nat.add_le_add_right (ih read) 2
  | case5 c rest other plain ih =>
    obtain ⟨out', n', read, rfl, rfl⟩ := by simpa using h
    exact Nat.add_le_add_right (ih read) 1

theorem numberLexeme_le (cs : List Char) : (numberLexeme cs).2 ≤ cs.length := by
  obtain ⟨sign, body, rfl, signed⟩ := exists_sign cs
  cases hex : isHexMarked body with
  | true =>
    obtain ⟨x, digits, back, rfl, mark, inside, stop⟩ := exists_hex hex
    rw [numberLexeme_hex (signed.imp_right And.left) mark inside stop]
    simp
  | false =>
    obtain ⟨whole, fraction, exponent, back, rfl, parts⟩ := exists_isDecimal body
    rw [numberLexeme_decimal signed hex parts]
    simp only [List.length_append]
    omega

theorem length_takeName_le (inside : Bool) (cs : List Char) :
    (takeName inside cs).length ≤ cs.length := by
  rw [← take_length_takeName]
  exact (List.take_sublist _ cs).length_le

theorem scan_le (c : Char) (rest : List Char) : (scan c rest).2 ≤ rest.length := by
  unfold scan
  split
  · exact Nat.zero_le _
  split
  · split
    next double =>
      obtain ⟨tail, rfl⟩ := List.head?_eq_some_iff.mp double
      exact Nat.le_add_left 1 _
    next => exact Nat.zero_le _
  split
  · split
    next arrow =>
      obtain ⟨tail, rfl⟩ := List.head?_eq_some_iff.mp arrow
      exact Nat.le_add_left 1 _
    next => exact Nat.zero_le _
  split
  next points =>
    have two : min 2 rest.length = 2 := by rw [← List.length_take, points.2]; rfl
    exact two ▸ Nat.min_le_right 2 rest.length
  split
  · unfold variableLexeme
    split
    · split
      · exact (List.takeWhile_sublist _).length_le
      · exact Nat.zero_le _
    · exact Nat.zero_le _
  split
  · unfold quotedLexeme
    split
    next closed => exact takeQuoted_le closed
    next => exact Nat.le_refl _
  split
  · exact Nat.sub_le_of_le_add (numberLexeme_le (c :: rest))
  split
  · exact length_takeName_le true rest
  split
  · exact length_takeName_le false rest
  · exact Nat.zero_le _

/-! ### What is scanned -/

/-- What a lexeme and the characters that it takes can be, by the character that it begins with. -/
inductive Scanned (c : Char) (rest : List Char) : Lexeme → Nat → Prop
  | mark {m : Mark} {n : Nat} (text : c :: rest.take n = m.text.toList) : Scanned c rest (.mark m) n
  | sigil {l : Lexeme} {n : Nat} (dollar : c = '$') (read : variableLexeme rest = (l, n)) :
      Scanned c rest l n
  | quoted {l : Lexeme} {n : Nat} (quote : c = '\'' ∨ c = '"') (read : quotedLexeme c rest = (l, n)) :
      Scanned c rest l n
  | number {l : Lexeme} {n k : Nat} (begins : beginsNumber c rest = true)
      (read : numberLexeme (c :: rest) = (l, k)) (count : n = k - 1) : Scanned c rest l n
  | name {l : Lexeme} {n : Nat} (inside : Bool)
      (start : inside = true ∧ isNameStart c = true ∨ inside = false ∧ c = '\\')
      (read : nameLexeme (c :: takeName inside rest) = l) (count : n = (takeName inside rest).length) :
      Scanned c rest l n
  | stray : Scanned c rest (.malformed (.character c)) 0

theorem text_of_soloMark? {c : Char} {m : Mark} (h : soloMark? c = some m) : [c] = m.text.toList := by
  unfold soloMark? at h
  split at h <;> cases h <;> rfl

theorem scan_cases (c : Char) (rest : List Char) : Scanned c rest (scan c rest).1 (scan c rest).2 := by
  unfold scan
  split
  next m solo => exact .mark (text_of_soloMark? solo)
  split
  next colon =>
    subst colon
    split
    next double =>
      obtain ⟨tail, rfl⟩ := List.head?_eq_some_iff.mp double
      exact .mark rfl
    next => exact .mark rfl
  split
  next equal =>
    subst equal
    split
    next arrow =>
      obtain ⟨tail, rfl⟩ := List.head?_eq_some_iff.mp arrow
      exact .mark rfl
    next => exact .mark rfl
  split
  next points => exact .mark (by rw [points.1, points.2]; rfl)
  split
  next dollar => exact .sigil dollar rfl
  split
  next quote => exact .quoted quote rfl
  split
  next begins => exact .number begins rfl rfl
  split
  next start => exact .name true (.inl ⟨rfl, start⟩) rfl rfl
  split
  next slash => exact .name false (.inr ⟨rfl, slash⟩) rfl rfl
  next => exact .stray

theorem scanned {c : Char} {rest : List Char} {l : Lexeme} {n : Nat} (read : scan c rest = (l, n)) :
    Scanned c rest l n := by
  have outcome := scan_cases c rest
  rw [read] at outcome
  exact outcome

end TypeHints.Hint
