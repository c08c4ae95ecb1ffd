import TypeHints.Proofs.Hint.Tokens

/-!
What is written between quotes is read back, if a backslash goes before each backslash and each
quote of that kind. What follows a quote stays open if and only if no quote in it closes.
-/
namespace TypeHints.Hint
open Text

/-- A quote of this kind or a backslash is written behind a backslash. -/
def escapeFor (q c : Char) : List Char := if c = q ∨ c = '\\' then ['\\', c] else [c]

def inQuotes (q : Char) (text : String) : List Char :=
  q :: (text.toList.flatMap (escapeFor q) ++ [q])

/-- How many backslashes the text ends with. -/
def slashes (cs : List Char) : Nat := (cs.reverse.takeWhile (· = '\\')).length

/-- The quote stands somewhere in the text and is not escaped: the backslashes right before it make up
pairs. -/
def Closes (q : Char) (cs : List Char) : Prop :=
  ∃ front back, cs = front ++ q :: back ∧ slashes front % 2 = 0

section
variable {q c : Char} {cs : List Char}

/-! ### Escapes -/

theorem ne_slash_of_quote (quote : q = '\'' ∨ q = '"') : q ≠ '\\' := by
  rcases quote with rfl | rfl <;> decide

theorem unescape_special (quote : q = '\'' ∨ q = '"') (special : c = q ∨ c = '\\') :
    unescape q c = [c] := by
  rcases quote with rfl | rfl <;> rcases special with rfl | rfl <;> rfl

theorem takeQuoted_close (q : Char) (cs : List Char) : takeQuoted q (q :: cs) = some ([], 1) := by
  rw [takeQuoted.eq_def]
  exact if_pos rfl

theorem takeQuoted_pair (other : q ≠ '\\') (e : Char) (cs : List Char) :
    takeQuoted q ('\\' :: e :: cs) =
      (takeQuoted q cs).map fun (out, n) => (unescape q e ++ out, n + 2) := by
  rw [takeQuoted, if_neg other.symm, if_pos rfl]

theorem takeQuoted_keep (opens : c ≠ q) (plain : c ≠ '\\') (cs : List Char) :
    takeQuoted q (c :: cs) = (takeQuoted q cs).map fun (out, n) => (c :: out, n + 1) := by
  rw [takeQuoted.eq_def]
  simp only [opens, plain, if_false]

theorem takeQuoted_escapeFor (quote : q = '\'' ∨ q = '"') (text after : List Char) :
    takeQuoted q (text.flatMap (escapeFor q) ++ q :: after) =
      some (text, (text.flatMap (escapeFor q)).length + 1) := by
  induction text with
  | nil => exact takeQuoted_close q after
  | cons c text ih =>
    rw [List.flatMap_cons, List.append_assoc]
    by_cases special : c = q ∨ c = '\\'
    · have written : escapeFor q c = ['\\', c] := if_pos special
      rw [written, List.cons_append, List.singleton_append, takeQuoted_pair (ne_slash_of_quote quote), ih,
        Option.map_some, unescape_special quote special]
      simp
    · have written : escapeFor q c = [c] := if_neg special
      obtain ⟨opens, plain⟩ := not_or.mp special
      rw [written, List.singleton_append, takeQuoted_keep opens plain, ih, Option.map_some]
      simp

/-! ### Quotes that close -/

theorem slashes_cons (plain : c ≠ '\\') (cs : List Char) : slashes (c :: cs) = slashes cs := by
  have bar : Barred (· = '\\') [c] := barred_cons.mpr (decide_eq_false plain)
  rw [slashes, List.reverse_cons, takeWhile_before bar]
  rfl

theorem slashes_pair (e : Char) (cs : List Char) :
    slashes ('\\' :: e :: cs) % 2 = slashes cs % 2 := by
  have text : ('\\' :: e :: cs).reverse = cs.reverse ++ [e, '\\'] := by simp
  unfold slashes
  rw [text]
  by_cases slash : e = '\\'
  · -- The run that ends the text reaches back over both of them, or stops behind them.
    subst slash
    rw [List.takeWhile_append]
    split
    next whole => simp [whole]
    next => rfl
  · have bar : Barred (· = '\\') [e, '\\'] := barred_cons.mpr (decide_eq_false slash)
    rw [takeWhile_before bar]

theorem closes_here (q : Char) (cs : List Char) : Closes q (q :: cs) := ⟨[], cs, rfl, rfl⟩

theorem not_closes_nil : ¬ Closes q [] := by
  rintro ⟨front, back, text, -⟩
  simp at text

theorem closes_cons (opens : c ≠ q) (plain : c ≠ '\\') : Closes q (c :: cs) ↔ Closes q cs := by
  constructor
  · rintro ⟨front, back, text, even⟩
    cases front with
    | nil => exact absurd (List.cons.inj text).1 opens
    | cons d front =>
      obtain ⟨rfl, rest⟩ := List.cons.inj text
      exact ⟨front, back, rest, slashes_cons plain front ▸ even⟩
  · rintro ⟨front, back, rfl, even⟩
    exact ⟨c :: front, back, rfl, (slashes_cons plain front).symm ▸ even⟩

theorem closes_slash (other : q ≠ '\\') (e : Char) : Closes q ('\\' :: e :: cs) ↔ Closes q cs := by
  constructor
  · rintro ⟨front, back, text, even⟩
    match front with
    | [] => exact absurd (List.cons.inj text).1.symm other
    | [d] =>
      obtain ⟨rfl, -⟩ := List.cons.inj text
      exact absurd even (by decide)
    | d :: f :: front =>
      obtain ⟨rfl, tail⟩ := List.cons.inj text
      obtain ⟨rfl, rest⟩ := List.cons.inj tail
      exact ⟨front, back, rest, slashes_pair e front ▸ even⟩
  · rintro ⟨front, back, rfl, even⟩
    exact ⟨'\\' :: e :: front, back, rfl, (slashes_pair e front).trans even⟩

theorem not_closes_slash (other : q ≠ '\\') : ¬ Closes q ['\\'] := by
  rintro ⟨front, back, text, -⟩
  cases front with
  | nil => exact other (List.cons.inj text).1.symm
  | cons d front => simp at text

theorem takeQuoted_eq_none_iff (other : q ≠ '\\') : takeQuoted q cs = none ↔ ¬ Closes q cs := by
  fun_induction takeQuoted q cs with
  | case1 => exact iff_of_true rfl not_closes_nil
  | case2 rest => exact iff_of_false (Option.some_ne_none _) (not_not_intro (closes_here _ rest))
  | case3 => exact iff_of_true rfl (not_closes_slash other)
  | case4 e rest _ ih => rw [Option.map_eq_none_iff, ih, closes_slash other]
  | case5 c rest opens plain ih => rw [Option.map_eq_none_iff, ih, closes_cons opens plain]

/-! ### Tokens -/

theorem scan_quote (quote : q = '\'' ∨ q = '"') (rest : List Char) : scan q rest = quotedLexeme q rest := by
  rcases quote with rfl | rfl <;> rfl

theorem tokensFrom_quote (quote : q = '\'' ∨ q = '"') {rest : List Char} {l : Lexeme} {n : Nat}
    (read : quotedLexeme q rest = (l, n)) (offset : Nat) :
    tokensFrom offset (q :: rest) = ⟨l, offset, q :: rest.take n⟩ ::
      tokensFrom (offset + byteSize (q :: rest.take n)) (rest.drop n) := by
  have visible : isBlank q = false := by rcases quote with rfl | rfl <;> decide
  exact tokensFrom_head visible ((scan_quote quote rest).trans read) offset

theorem tokensFrom_inQuotes (quote : q = '\'' ∨ q = '"') (text : String) (after : List Char)
    (offset : Nat) :
    tokensFrom offset (inQuotes q text ++ after) =
      ⟨.quoted text, offset, inQuotes q text⟩ ::
        tokensFrom (offset + byteSize (inQuotes q text)) after := by
  have read : quotedLexeme q (text.toList.flatMap (escapeFor q) ++ q :: after) =
      (.quoted text, (text.toList.flatMap (escapeFor q) ++ [q]).length) := by
    simp [quotedLexeme, takeQuoted_escapeFor quote]
  have split : text.toList.flatMap (escapeFor q) ++ q :: after =
      text.toList.flatMap (escapeFor q) ++ [q] ++ after := by simp
  have first := tokensFrom_quote quote read offset
  rw [split, List.take_left, List.drop_left] at first
  exact first

theorem tokensFrom_open (quote : q = '\'' ∨ q = '"') {body : List Char} (never : ¬ Closes q body)
    (offset : Nat) :
    tokensFrom offset (q :: body) =
      [⟨.malformed .unterminatedString, offset, q :: body⟩,
        ⟨.finish, offset + byteSize (q :: body), []⟩] := by
  have unclosed := (takeQuoted_eq_none_iff (ne_slash_of_quote quote)).mpr never
  have read : quotedLexeme q body = (.malformed .unterminatedString, body.length) := by
    simp [quotedLexeme, unclosed]
  rw [tokensFrom_quote quote read, List.take_length, List.drop_length, tokensFrom_blank rfl]
  rfl

theorem exists_quoted_of_closes (quote : q = '\'' ∨ q = '"') {body : List Char} (closes : Closes q body)
    (offset : Nat) :
    ∃ text token rest, tokensFrom offset (q :: body) = token :: rest ∧ token.lexeme = .quoted text := by
  cases closed : takeQuoted q body with
  | none => exact absurd closes ((takeQuoted_eq_none_iff (ne_slash_of_quote quote)).mp closed)
  | some found =>
    have read : quotedLexeme q body = (.quoted (String.ofList found.1), found.2) := by
      simp [quotedLexeme, closed]
    exact ⟨_, _, _, tokensFrom_quote quote read offset, rfl⟩

/-- What stands between quotes is read back, whatever comes behind them, and the token ends with the
closing quote. What follows a quote is one unterminated text up to the end, if and only if no quote in
it closes. -/
theorem quoted_read_back (quote : q = '\'' ∨ q = '"') :
    (∀ (text : String) (after : List Char),
      tokens (String.ofList (inQuotes q text ++ after)) =
        ⟨.quoted text, 0, inQuotes q text⟩ :: tokensFrom (byteSize (inQuotes q text)) after) ∧
    (∀ body : List Char,
      tokens (String.ofList (q :: body)) =
          [⟨.malformed .unterminatedString, 0, q :: body⟩, ⟨.finish, byteSize (q :: body), []⟩] ↔
        ¬ Closes q body) ∧
    (Lexeme.malformed .unterminatedString).describe = "unterminated string literal" := by
  refine ⟨fun text after => ?_, fun body => ⟨fun one closes => ?_, fun never => ?_⟩, rfl⟩
  · have first := tokensFrom_inQuotes quote text after 0
    rw [Nat.zero_add] at first
    rw [tokens, String.toList_ofList, first]
  · obtain ⟨text, token, rest, first, quoted⟩ := exists_quoted_of_closes quote closes 0
    rw [tokens, String.toList_ofList, first] at one
    rw [(List.cons.inj one).1] at quoted
    cases quoted
  · have whole := tokensFrom_open quote never 0
    rw [Nat.zero_add] at whole
    rw [tokens, String.toList_ofList, whole]

end

/-- Two backslashes before a quote leave it to close, a third one does not. -/
theorem quoted_read_back_slashes :
    tokens "\"a\\\\\\\"\n\"|" =
        [⟨.quoted "a\\\"\n", 0, "\"a\\\\\\\"\n\"".toList⟩, ⟨.mark .pipe, 8, ['|']⟩, ⟨.finish, 9, []⟩] ∧
      ¬ Closes '"' "a\\\\\\\"".toList ∧
      tokens "\"a\\\\\\\"" =
        [⟨.malformed .unterminatedString, 0, "\"a\\\\\\\"".toList⟩, ⟨.finish, 6, []⟩] := by
  have ⟨reads, opens, _⟩ := quoted_read_back (q := '"') (.inr rfl)
  have closed := reads "a\\\"\n" ['|']
  have unclosed : ¬ Closes '"' "a\\\\\\\"".toList := (takeQuoted_eq_none_iff (by decide)).mp (by decide)
  refine ⟨closed.trans ?_, unclosed, (opens _).mpr unclosed⟩
  rw [tokensFrom_head (by decide) (l := .mark .pipe) (n := 0) rfl, tokensFrom_blank rfl]
  rfl

end TypeHints.Hint
