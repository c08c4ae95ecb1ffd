import TypeHints.Proofs.Except
import TypeHints.Proofs.Hint.Delimitation
import TypeHints.Proofs.Hint.Placement
import TypeHints.Proofs.Hint.Tiling

namespace TypeHints.Hint
open Text

variable {text : List Char} {start : Nat} {ts : List Token}

/-- Blanks that keep apart what stands on either side of them. -/
structure Gap where
  text : List Char
  some : text ≠ []
  blank : ∀ c ∈ text, isBlank c = true

/-- The words with a gap before each of them and one behind the last. -/
def spread (gap : Nat → Gap) : List (List Char) → List Char
  | [] => (gap 0).text
  | word :: words => (gap 0).text ++ (word ++ spread (fun i => gap (i + 1)) words)

/-- The text of every token but the end. -/
def words (s : String) : List (List Char) :=
  (tokens s).dropLast.map fun t => slice t.start t.stop s.toList

/-- The text with other gaps between its tokens, before the first and behind the last. -/
def respaced (gap : Nat → Gap) (s : String) : String := String.ofList (spread gap (words s))

/-! ### The words of a text -/

theorem slice_of_slice? {start stop : Nat} {piece : List Char}
    (h : slice? start stop text = some piece) : slice start stop text = piece := by
  unfold slice? at h
  split at h
  · exact Option.some.inj h
  · cases h

theorem Tiles.ne_nil (h : Tiles text start ts) : ts ≠ [] := by
  cases h <;> exact List.cons_ne_nil _ _

theorem Tiles.slices (h : Tiles text start ts) :
    ts.dropLast.map (fun t => slice t.start t.stop text) = ts.dropLast.map Token.text := by
  induction h with
  | finish => rfl
  | token _ _ _ written later ih =>
    rw [List.dropLast_cons_of_ne_nil later.ne_nil, List.map_cons, List.map_cons, ih,
      slice_of_slice? written]

theorem Tiles.lexemes_eq (h : Tiles text start ts) : lexemes ts = lexemes ts.dropLast ++ [.finish] := by
  induction h with
  | finish => rfl
  | token _ _ _ _ later ih =>
    rw [List.dropLast_cons_of_ne_nil later.ne_nil, lexemes_cons, lexemes_cons, ih, List.cons_append]

/-! ### Tokens of spread words -/

theorem spread_closes (gap : Nat → Gap) (words : List (List Char)) (l : Lexeme) :
    Barred (fun c => !l.closedBy c) (spread gap words) := by
  have front (back : List Char) : Barred (fun c => !l.closedBy c) ((gap 0).text ++ back) := by
    cases text : (gap 0).text with
    | nil => exact absurd text (gap 0).some
    | cons b more =>
      have blank := (gap 0).blank b (by rw [text]; exact List.mem_cons_self)
      refine barred_cons.mpr ?_
      rw [l.closedBy_of_isBlank blank]
      rfl
  cases words with
  | nil =>
    rw [spread, ← List.append_nil (gap 0).text]
    exact front []
  | cons word words => exact front _

/-- Each legible token is scanned again from its own characters, for what follows begins with a blank. -/
theorem lexemes_spread {cs : List Char} {used rest : List Token} (h : tokensFrom start cs = used ++ rest)
    (legible : ∀ t ∈ used, t.lexeme.isLegible = true) (gap : Nat → Gap) (start' : Nat) :
    lexemes (tokensFrom start' (spread gap (used.map Token.text))) = lexemes used ++ [.finish] := by
  induction used generalizing start cs gap start' with
  | nil =>
    show lexemes (tokensFrom start' (gap 0).text) = _
    rw [tokensFrom_blank (List.dropWhile_eq_nil_iff.mpr (gap 0).blank)]
    rfl
  | cons t used ih =>
    have seen := legible t List.mem_cons_self
    cases tokensFrom_begins start cs with
    | finish _ whole =>
      rw [whole] at h
      rw [← (List.cons.inj h).1] at seen
      cases seen
    | @token _ taken back c l _ _ visible read whole =>
      rw [whole] at h
      obtain ⟨rfl, later⟩ := List.cons.inj h
      have others := ih later (fun u member => legible u (List.mem_cons_of_mem _ member))
        fun i => gap (i + 1)
      have closed := spread_closes (fun i => gap (i + 1)) (used.map Token.text) l
      have again := scan_follows read seen (.closed closed)
      rw [List.take_left] at again
      rw [List.map_cons, spread, tokensFrom_append_blank (gap 0).blank, List.cons_append,
        tokensFrom_head visible again, List.drop_left, lexemes_cons, others]
      rfl

/-! ### Texts with other gaps -/

/-- With other gaps between legible tokens a text has the same lexemes, and it is read as the same type,
or refused for the same fault. So is the type at its front. -/
theorem read_respaced (s : String) (gap : Nat → Gap)
    (legible : ∀ t ∈ (tokens s).dropLast, t.lexeme.isLegible = true) :
    lexemes (tokens (respaced gap s)) = lexemes (tokens s) ∧
      (read (respaced gap s)).mapError ReadError.fault = (read s).mapError ReadError.fault ∧
      ((readPrefix (respaced gap s)).map Prod.fst).mapError ReadError.fault =
        ((readPrefix s).map Prod.fst).mapError ReadError.fault := by
  have tile := tokens_tile s
  have split : tokensFrom 0 s.toList = (tokens s).dropLast ++ [(tokens s).getLast tile.ne_nil] :=
    (List.dropLast_append_getLast tile.ne_nil).symm
  have same : lexemes (tokens (respaced gap s)) = lexemes (tokens s) := by
    unfold respaced words
    rw [tile.slices, tokens, String.toList_ofList, lexemes_spread split legible, ← tile.lexemes_eq]
  exact ⟨same, read_of_lexemes same, readPrefix_of_lexemes same⟩

theorem tokens_fetch : tokens "Foo::*" = [⟨.name "Foo", 0, "Foo".toList⟩,
    ⟨.mark .doubleColon, 3, "::".toList⟩, ⟨.mark .star, 5, ['*']⟩, ⟨.finish, 6, []⟩] := by
  have text : "Foo::*".toList = ['F', 'o', 'o', ':', ':', '*'] := rfl
  rw [tokens, text, tokensFrom_scan (c := 'F') (l := .name "Foo") (n := 2) (by rfl) (by rfl),
    tokensFrom_scan (c := ':') (l := .mark .doubleColon) (n := 1) (by rfl) (by rfl),
    tokensFrom_scan (c := '*') (l := .mark .star) (n := 0) (by rfl) (by rfl), tokensFrom_blank (by rfl)]
  rfl

/-- A colon followed by a blank could be a lone one, but `::` is scanned whole. -/
theorem read_respaced_fetch : (∀ t ∈ (tokens "Foo::*").dropLast, t.lexeme.isLegible = true) ∧
    (∀ gap : Nat → Gap, read (respaced gap "Foo::*") = .ok (.const (.fetch "Foo" "*"))) ∧
    respaced (fun _ => ⟨['\n', ' '], by decide, List.all_eq_true.mp rfl⟩) "Foo::*" = "\n Foo\n ::\n *\n " := by
  have legible : ∀ t ∈ (tokens "Foo::*").dropLast, t.lexeme.isLegible = true := by
    rw [tokens_fetch]
    decide
  have tight : read "Foo::*" = .ok (.const (.fetch "Foo" "*")) := by
    have spelled : IsType (atoms maxDepth) (.const (.fetch "Foo" "*"))
        [.name "Foo", .mark .doubleColon, .mark .star] :=
      .single (.single (.operand (.closed (.base (.fetch .star)))))
    apply read_of_spelled spelled
    rw [tokens_fetch]
    rfl
  refine ⟨legible, fun gap => ?_, ?_⟩
  · have wide := (read_respaced "Foo::*" gap legible).2.1
    rw [tight] at wide
    exact mapError_eq_ok.mp wide
  · unfold respaced words
    rw [tokens_fetch]
    rfl

end TypeHints.Hint
