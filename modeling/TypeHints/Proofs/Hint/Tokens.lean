import Mathlib.Data.List.TakeWhile
import TypeHints.Proofs.Hint.Scanning

/-!
# The tokens of a text

`tokensFrom` takes a text apart from left to right. `tokensFrom_cut` says what happens to the tokens
when the text is cut where a legible one ends: those before the cut stay as they are.
-/
namespace TypeHints.Hint
open Text

def lexemes (ts : List Token) : List Lexeme := ts.map Token.lexeme

@[simp] theorem lexemes_nil : lexemes [] = [] := rfl

@[simp] theorem lexemes_cons (t : Token) (ts : List Token) :
    lexemes (t :: ts) = t.lexeme :: lexemes ts := rfl

@[simp] theorem lexemes_append (ts us : List Token) :
    lexemes (ts ++ us) = lexemes ts ++ lexemes us := by simp [lexemes]

def endOf (start : Nat) : List Token → Nat
  | [] => start
  | t :: ts => endOf t.stop ts

@[simp] theorem endOf_nil (start : Nat) : endOf start [] = start := rfl

@[simp] theorem endOf_cons (start : Nat) (t : Token) (ts : List Token) :
    endOf start (t :: ts) = endOf t.stop ts := rfl

@[simp] theorem endOf_append (start : Nat) (ts us : List Token) :
    endOf start (ts ++ us) = endOf (endOf start ts) us := by
  induction ts generalizing start with
  | nil => rfl
  | cons t ts ih => exact ih t.stop

/-! ### One step -/

theorem tokensFrom_blank {cs : List Char} (blank : cs.dropWhile isBlank = []) (offset : Nat) :
    tokensFrom offset cs = [⟨.finish, offset + byteSize (cs.takeWhile isBlank), []⟩] := by
  rw [tokensFrom]
  split
  · rfl
  next c rest text => rw [blank] at text; exact absurd text (by simp)

theorem tokensFrom_scan {cs rest : List Char} {c : Char} {l : Lexeme} {n : Nat}
    (text : cs.dropWhile isBlank = c :: rest) (read : scan c rest = (l, n)) (offset : Nat) :
    tokensFrom offset cs =
      ⟨l, offset + byteSize (cs.takeWhile isBlank), c :: rest.take n⟩ ::
        tokensFrom (offset + byteSize (cs.takeWhile isBlank) + byteSize (c :: rest.take n))
          (rest.drop n) := by
  rw [tokensFrom]
  split
  next blank => rw [text] at blank; exact absurd blank (by simp)
  next c' rest' text' =>
    rw [text] at text'
    obtain ⟨rfl, rfl⟩ := List.cons.inj text'
    simp only [read]

theorem tokensFrom_append_blank {gap cs : List Char} (blank : ∀ c ∈ gap, isBlank c = true)
    (offset : Nat) : tokensFrom offset (gap ++ cs) = tokensFrom (offset + byteSize gap) cs := by
  have take : (gap ++ cs).takeWhile isBlank = gap ++ cs.takeWhile isBlank :=
    List.takeWhile_append_of_pos blank
  have drop : (gap ++ cs).dropWhile isBlank = cs.dropWhile isBlank :=
    List.dropWhile_append_of_pos blank
  cases text : cs.dropWhile isBlank with
  | nil =>
    rw [tokensFrom_blank (drop.trans text), tokensFrom_blank text, take, byteSize_append,
      Nat.add_assoc]
  | cons c rest =>
    rw [tokensFrom_scan (drop.trans text) rfl, tokensFrom_scan text rfl, take, byteSize_append]
    simp only [Nat.add_assoc]

theorem tokensFrom_head {c : Char} (visible : isBlank c = false) {rest : List Char} {l : Lexeme}
    {n : Nat} (read : scan c rest = (l, n)) (offset : Nat) :
    tokensFrom offset (c :: rest) =
      ⟨l, offset, c :: rest.take n⟩ ::
        tokensFrom (offset + byteSize (c :: rest.take n)) (rest.drop n) := by
  rw [tokensFrom_scan (by simp [visible]) read]
  simp [visible, byteSize]

theorem lexemes_tokensFrom (cs : List Char) (start start' : Nat) :
    lexemes (tokensFrom start cs) = lexemes (tokensFrom start' cs) := by
  induction size : cs.length using Nat.strongRecOn generalizing cs start start' with
  | _ size ih =>
    subst size
    cases text : cs.dropWhile isBlank with
    | nil => rw [tokensFrom_blank text, tokensFrom_blank text]; rfl
    | cons c rest =>
      have shorter := (List.dropWhile_sublist (l := cs) isBlank).length_le
      rw [text, List.length_cons] at shorter
      rw [tokensFrom_scan text rfl, tokensFrom_scan text rfl, lexemes_cons, lexemes_cons]
      refine congrArg _ (ih _ ?_ _ _ _ rfl)
      rw [List.length_drop]
      omega

theorem tokensFrom_ne_nil (start : Nat) (cs : List Char) : tokensFrom start cs ≠ [] := by
  cases text : cs.dropWhile isBlank with
  | nil => rw [tokensFrom_blank text]; simp
  | cons c rest => rw [tokensFrom_scan text rfl]; simp

/-- What the tokens leave of themselves are the tokens of what they leave of the text. -/
theorem tokensFrom_append {offset : Nat} {cs : List Char} {used rest : List Token}
    (h : tokensFrom offset cs = used ++ rest) (more : rest ≠ []) :
    ∃ offset' back, back <:+ cs ∧ rest = tokensFrom offset' back := by
  induction used generalizing offset cs with
  | nil => exact ⟨offset, cs, List.suffix_refl cs, h.symm⟩
  | cons t used ih =>
    cases text : cs.dropWhile isBlank with
    | nil =>
      rw [tokensFrom_blank text] at h
      have := (List.cons.inj h).2
      exact absurd (List.append_eq_nil_iff.mp this.symm).2 more
    | cons c tail =>
      rw [tokensFrom_scan text rfl] at h
      obtain ⟨offset', back, suffix, same⟩ := ih (List.cons.inj h).2
      refine ⟨offset', back, suffix.trans ((List.drop_suffix _ tail).trans ?_), same⟩
      exact (text ▸ List.suffix_cons c tail).trans (List.dropWhile_suffix isBlank)

theorem token_scanned {start : Nat} {cs : List Char} {used rest : List Token} {t : Token}
    (h : tokensFrom start cs = used ++ t :: rest) (inner : t.lexeme ≠ .finish) :
    ∃ c tail n, scan c tail = (t.lexeme, n) ∧ t.text = c :: tail.take n := by
  obtain ⟨start, back, -, same⟩ := tokensFrom_append h (by simp)
  cases text : back.dropWhile isBlank with
  | nil =>
    rw [tokensFrom_blank text] at same
    rw [(List.cons.inj same).1] at inner
    exact absurd rfl inner
  | cons c tail =>
    rw [tokensFrom_scan text rfl] at same
    rw [(List.cons.inj same).1]
    exact ⟨c, tail, _, rfl, rfl⟩

/-! ### Cuts -/

theorem scan_point : scan '.' [] = (.malformed (.character '.'), 0) := by decide

theorem tokensFrom_point {offset : Nat} {used : List Token} {last : Token}
    (h : tokensFrom offset ['.'] = used ++ [last]) (legible : ∀ t ∈ used, t.lexeme.isLegible = true) :
    False := by
  rw [tokensFrom_head (by decide) scan_point] at h
  cases used with
  | nil =>
    obtain ⟨_, none⟩ := List.cons.inj h
    rw [tokensFrom_blank rfl] at none
    exact absurd none (by simp)
  | cons t used =>
    have first := legible t (by simp)
    rw [← (List.cons.inj h).1] at first
    exact absurd first (by simp [Lexeme.isLegible])

theorem byteSize_eq_zero {cs : List Char} (h : byteSize cs = 0) : cs = [] := by
  cases cs with
  | nil => rfl
  | cons c rest =>
    have positive := Char.utf8Size_pos c
    simp only [byteSize] at h
    omega

theorem take_drop_cut {n : Nat} {tail front back : List Char} (split : tail.drop n = front ++ back) :
    (tail.take n ++ front).take n = tail.take n ∧ (tail.take n ++ front).drop n = front := by
  rcases Nat.le_total n tail.length with inside | outside
  · have length : (tail.take n).length = n := by simp [inside]
    exact ⟨List.take_left' length, List.drop_left' length⟩
  · rw [List.drop_eq_nil_of_le outside] at split
    obtain ⟨rfl, -⟩ := List.append_eq_nil_iff.mp split.symm
    simp [List.take_take]

/-- Cut where `used` ends, a text still has these tokens. -/
theorem tokensFrom_cut {offset : Nat} {cs : List Char} {used rest : List Token}
    (h : tokensFrom offset cs = used ++ rest) (legible : ∀ t ∈ used, t.lexeme.isLegible = true) :
    ∃ front back, cs = front ++ back ∧ endOf offset used = offset + byteSize front ∧
      tokensFrom offset front = used ++ [⟨.finish, offset + byteSize front, []⟩] ∧
      rest = tokensFrom (offset + byteSize front) back ∧ ∀ t ∈ used.getLast?, t.text <:+ front := by
  induction used generalizing offset cs with
  | nil => exact ⟨[], cs, rfl, rfl, by rw [tokensFrom_blank rfl]; rfl, h.symm, by simp⟩
  | cons t used ih =>
    have seen := legible t (by simp)
    cases text : cs.dropWhile isBlank with
    | nil =>
      rw [tokensFrom_blank text] at h
      rw [← (List.cons.inj h).1] at seen
      exact absurd seen (by simp [Lexeme.isLegible])
    | cons c tail =>
      cases read : scan c tail with
      | mk l n =>
        rw [tokensFrom_scan text read] at h
        rw [List.cons_append] at h
        obtain ⟨rfl, later⟩ := List.cons.inj h
        obtain ⟨front, back, split, ends, again, left, text'⟩ :=
          ih later fun u member => legible u (List.mem_cons_of_mem _ member)
        -- The token has read no further than the next one starts, so the end of the text may come there.
        have cut : Follows l (tail.drop n) front := .cut ⟨back, split.symm⟩ <| by
          rintro rfl
          exact tokensFrom_point again fun u member => legible u (List.mem_cons_of_mem _ member)
        have same : cs = cs.takeWhile isBlank ++ (c :: (tail.take n ++ front)) ++ back := by
          rw [List.append_assoc, List.cons_append, List.append_assoc, ← split,
            List.take_append_drop, ← text, List.takeWhile_append_dropWhile]
        have size : offset + byteSize (cs.takeWhile isBlank ++ (c :: (tail.take n ++ front))) =
            offset + byteSize (cs.takeWhile isBlank) + byteSize (c :: tail.take n) +
              byteSize front := by
          simp only [byteSize_append, ← List.cons_append, Nat.add_assoc]
        have visible : isBlank c = false := by
          simpa [text] using List.head?_dropWhile_not isBlank cs
        refine ⟨_, back, same, by rw [size]; exact ends, ?_, by rw [size]; exact left, ?_⟩
        case refine_2 =>
          have inner : front <:+ cs.takeWhile isBlank ++ (c :: (tail.take n ++ front)) :=
            (List.suffix_append (tail.take n) front).trans
              ((List.suffix_cons c _).trans (List.suffix_append _ _))
          cases used with
          | nil =>
            rintro _ ⟨⟩
            obtain rfl : front = [] := byteSize_eq_zero (by simpa using ends)
            simp
          | cons u used =>
            rw [List.getLast?_cons_cons]
            exact fun t member => (text' t member).trans inner
        rw [size, tokensFrom_append_blank (takeWhile_inside isBlank cs),
          tokensFrom_head visible (scan_follows read seen cut), (take_drop_cut split).1,
          (take_drop_cut split).2]
        rw [Nat.add_assoc] at again ⊢
        exact congrArg _ again

/-- More text may stand behind without a change of the tokens, from a character on that closes the last
of them and is no part of a number. -/
theorem tokensFrom_longer {offset : Nat} {cs : List Char} {used : List Token} {last : Token}
    (h : tokensFrom offset cs = used ++ [last]) (legible : ∀ t ∈ used, t.lexeme.isLegible = true)
    {b : Char} (ends : endsNumber b = true) (closed : ∀ t ∈ used.getLast?, t.lexeme.closedBy b = true)
    (more : List Char) :
    tokensFrom offset (cs ++ b :: more) = used ++ tokensFrom (offset + byteSize cs) (b :: more) := by
  induction used generalizing offset cs with
  | nil =>
    have none : cs.dropWhile isBlank = [] := by
      cases text : cs.dropWhile isBlank with
      | nil => rfl
      | cons c tail =>
        rw [tokensFrom_scan text rfl] at h
        exact absurd (List.cons.inj h).2 (tokensFrom_ne_nil _ _)
    exact tokensFrom_append_blank (List.dropWhile_eq_nil_iff.mp none) offset
  | cons t used ih =>
    have seen := legible t List.mem_cons_self
    cases text : cs.dropWhile isBlank with
    | nil =>
      rw [tokensFrom_blank text] at h
      exact absurd (List.cons.inj h).2 (by simp)
    | cons c tail =>
      cases read : scan c tail with
      | mk l n =>
        rw [tokensFrom_scan text read, List.cons_append] at h
        obtain ⟨rfl, later⟩ := List.cons.inj h
        have closedRest : ∀ u ∈ used.getLast?, u.lexeme.closedBy b = true := by
          intro u member
          apply closed u
          cases used with
          | nil => cases member
          | cons v used => rwa [List.getLast?_cons_cons]
        have rest := ih later (fun u member => legible u (List.mem_cons_of_mem _ member)) closedRest
        -- Nothing stands between the last token and the character.
        have closedHere : tail.drop n = [] → l.closedBy b = true := by
          intro none
          rw [none, tokensFrom_blank rfl] at later
          have alone : used = [] := by
            cases used with
            | nil => rfl
            | cons v used => exact absurd (List.cons.inj later).2 (by simp)
          subst alone
          exact closed _ rfl
        have within : n ≤ tail.length := by
          have le := scan_le c tail
          rwa [read] at le
        have visible : isBlank c = false := by
          simpa [text] using List.head?_dropWhile_not isBlank cs
        have split : cs = cs.takeWhile isBlank ++ c :: tail := by
          rw [← text, List.takeWhile_append_dropWhile]
        have longer : cs ++ b :: more = cs.takeWhile isBlank ++ c :: (tail ++ b :: more) := by
          rw [← List.cons_append, ← List.append_assoc, ← split]
        have size : byteSize cs = byteSize (cs.takeWhile isBlank) +
            (byteSize (c :: tail.take n) + byteSize (tail.drop n)) := by
          rw [← byteSize_append, List.cons_append, List.take_append_drop, ← byteSize_append, ← split]
        have again := scan_follows read seen (.longer ends closedHere more)
        rw [← List.append_assoc, List.take_append_drop] at again
        rw [longer, tokensFrom_append_blank (takeWhile_inside isBlank cs), tokensFrom_head visible again,
          List.take_append_of_le_length within, List.drop_append_of_le_length within, rest, size]
        simp only [Nat.add_assoc, List.cons_append]

/-! ### A variable without a name -/

/-- Lexemes that only what follows a `$` can become, and the end of a text. -/
def Lexeme.isVariable : Lexeme → Bool
  | .this | .var _ | .finish => true
  | _ => false

theorem isVariable_numberLexeme (cs : List Char) : (numberLexeme cs).1.isVariable = false := by
  rcases numberLexeme_cases cs with number | ⟨what, malformed⟩
  · revert number
    cases (numberLexeme cs).1 <;> simp [Lexeme.isNumber, Lexeme.isVariable]
  · rw [malformed]; rfl

theorem isVariable_nameLexeme (text : List Char) : (nameLexeme text).isVariable = false := by
  unfold nameLexeme; split <;> rfl

theorem scan_variable {c : Char} {rest : List Char} {l : Lexeme} {n : Nat}
    (read : scan c rest = (l, n)) (kind : l.isVariable = true) : variableLexeme rest = (l, n) := by
  cases scanned read with
  | sigil _ read => exact read
  | mark | stray => cases kind
  | quoted _ read => unfold quotedLexeme at read; split at read <;> cases read <;> cases kind
  | number _ read _ =>
    have other := isVariable_numberLexeme (c :: rest)
    rw [read, kind] at other
    cases other
  | name _ _ read _ => rw [← read, isVariable_nameLexeme] at kind; cases kind

theorem scan_ne_finish (c : Char) (rest : List Char) : (scan c rest).1 ≠ .finish := by
  intro finish
  have read : variableLexeme rest = (.finish, (scan c rest).2) :=
    scan_variable (Prod.ext finish rfl) rfl
  unfold variableLexeme at read
  split at read
  · split at read
    · have same := (Prod.mk.inj read).1
      split at same <;> cases same
    · cases read
  · cases read

theorem finish_of_tokensFrom {start : Nat} {cs : List Char} {t : Token} {ts : List Token}
    (h : tokensFrom start cs = t :: ts) : t.lexeme = .finish ↔ cs.dropWhile isBlank = [] := by
  cases text : cs.dropWhile isBlank with
  | nil =>
    rw [tokensFrom_blank text] at h
    rw [← (List.cons.inj h).1]
    simp
  | cons c rest =>
    have other := scan_ne_finish c rest
    cases read : scan c rest with
    | mk l n =>
      rw [read] at other
      rw [tokensFrom_scan text read] at h
      rw [← (List.cons.inj h).1]
      simpa using other

/-- The character behind the `$` begins a name, but may be none of a variable's. -/
theorem variableLexeme_nameless {rest : List Char} {n : Nat}
    (read : variableLexeme rest = (.var "", n)) :
    n = 0 ∧ ∃ d tail, rest = d :: tail ∧ isNameStart d = true := by
  match rest with
  | [] => simp [variableLexeme] at read
  | d :: tail =>
    simp only [variableLexeme] at read
    split at read
    next begins =>
      obtain ⟨same, rfl⟩ := Prod.mk.inj read
      split at same
      · exact absurd same (by simp)
      · have none := congrArg String.toList (Lexeme.var.inj same)
        rw [String.toList_ofList] at none
        exact ⟨by rw [none]; rfl, d, tail, rfl, begins⟩
    next => simp at read

theorem scan_nameStart {c : Char} (h : isNameStart c = true) (rest : List Char) :
    (scan c rest).1 = nameLexeme (c :: takeName true rest) := by
  have digit := (not_of_isNameStart h).2
  have other (d : Char) (no : isNameStart d = false) : c ≠ d := by
    rintro rfl; rw [h] at no; exact absurd no (by simp)
  have solo : soloMark? c = none := by
    unfold soloMark?
    split <;> first | rfl | exact absurd h (by decide)
  have number := beginsNumber_of_isNameStart (.inl h) digit rest
  simp only [beginsNumber] at number
  simp only [scan, solo, other _ (by decide : isNameStart ':' = false), h, number,
    other _ (by decide : isNameStart '=' = false), other _ (by decide : isNameStart '.' = false),
    other _ (by decide : isNameStart '$' = false), other _ (by decide : isNameStart '"' = false),
    other _ (by decide : isNameStart '\'' = false), false_and, or_self, if_false, if_true]
  rfl

theorem nameless_append {offset : Nat} {cs : List Char} {used rest : List Token} {t u : Token}
    (h : tokensFrom offset cs = used ++ t :: u :: rest) (nameless : t.lexeme = .var "") (m : Mark) :
    u.lexeme ≠ .mark m := by
  obtain ⟨offset, back, -, same⟩ := tokensFrom_append h (by simp)
  cases text : back.dropWhile isBlank with
  | nil => rw [tokensFrom_blank text] at same; simp at same
  | cons c tail =>
    cases read : scan c tail with
    | mk l n =>
      rw [tokensFrom_scan text read] at same
      obtain ⟨rfl, later⟩ := List.cons.inj same
      obtain rfl : l = .var "" := nameless
      obtain ⟨rfl, d, tail, rfl, begins⟩ := variableLexeme_nameless (scan_variable read rfl)
      rw [List.drop_zero, tokensFrom_head (not_of_isNameStart begins).1 rfl] at later
      rw [(List.cons.inj later).1]
      show (scan d tail).1 ≠ _
      rw [scan_nameStart begins]
      unfold nameLexeme
      split <;> simp

end TypeHints.Hint
