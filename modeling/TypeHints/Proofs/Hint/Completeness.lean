import TypeHints.Proofs.Hint.Soundness

/-!
Tokens that spell a value are read as this value, whatever tokens stand behind them that do not go
on with it. `typeRead_complete` is the case of whole types.
-/
namespace TypeHints.Hint

variable {α : Type}

/-- The outcome is the value `v` with the tokens `rest` left. -/
def Reads {ts : List Token} (outcome : Except ReadError (Read ts α)) (v : α) (rest : List Token) :
    Prop :=
  outcome.map (fun r => (r.value, r.rest)) = .ok (v, rest)

def Trails {ts : List Token} (outcome : Except ReadError (Trail ts α)) (v : α) (rest : List Token) :
    Prop :=
  outcome.map (fun r => (r.value, r.rest)) = .ok (v, rest)

theorem Reads.ok {ts : List Token} {outcome : Except ReadError (Read ts α)} {v : α}
    {rest : List Token} (h : Reads outcome v rest) :
    ∃ last shorter, outcome = .ok ⟨v, last, rest, shorter⟩ := by
  obtain ⟨⟨_, last, _, shorter⟩, same, pair⟩ := map_eq_ok.mp h
  obtain ⟨rfl, rfl⟩ := Prod.mk.inj pair
  exact ⟨last, shorter, same⟩

theorem Trails.ok {ts : List Token} {outcome : Except ReadError (Trail ts α)} {v : α}
    {rest : List Token} (h : Trails outcome v rest) :
    ∃ last noLonger, outcome = .ok ⟨v, last, rest, noLonger⟩ := by
  obtain ⟨⟨_, last, _, noLonger⟩, same, pair⟩ := map_eq_ok.mp h
  obtain ⟨rfl, rfl⟩ := Prod.mk.inj pair
  exact ⟨last, noLonger, same⟩

/-- Every spelling of the phrase is read when no tokens follow at which `more` holds. -/
def Complete (read : Reader α) (P : Phrase α) (more : List Token → Bool) : Prop :=
  ∀ ⦃v ls⦄, P v ls → ∀ {used rest : List Token}, lexemes used = ls → more rest = false →
    Reads (read (used ++ rest)) v rest

def Halts (more : List Token → Bool) (m : Mark) : Prop :=
  ∀ {t : Token} {ts : List Token}, t.lexeme = .mark m → more (t :: ts) = false

theorem lexemes_eq_cons {ts : List Token} {l : Lexeme} {ls : List Lexeme} :
    lexemes ts = l :: ls ↔ ∃ t us, ts = t :: us ∧ t.lexeme = l ∧ lexemes us = ls :=
  List.map_eq_cons_iff

theorem lexemes_eq_append {ts : List Token} {ls more : List Lexeme} :
    lexemes ts = ls ++ more ↔ ∃ us vs, ts = us ++ vs ∧ lexemes us = ls ∧ lexemes vs = more :=
  List.map_eq_append_iff

theorem lexemes_eq_nil {ts : List Token} : lexemes ts = [] ↔ ts = [] := List.map_eq_nil_iff

theorem Token.is_iff {t : Token} {m : Mark} : t.is m = true ↔ t.lexeme = .mark m := by
  simp [Token.is]

theorem Token.is_of {t : Token} {m n : Mark} (h : t.lexeme = .mark n) : t.is m = decide (n = m) := by
  simp [Token.is, h]

theorem nextIs_eq (m : Mark) (ts : List Token) :
    nextIs m ts = decide ((lexemes ts).head? = some (.mark m)) := by
  cases ts <;> simp [nextIs, Token.is]

theorem expect_complete (m : Mark) : Complete (expect m) (Written [.mark m]) fun _ => false := by
  rintro _ _ rfl used rest spell -
  obtain ⟨t, us, rfl, same, none⟩ := lexemes_eq_cons.mp spell
  obtain rfl := lexemes_eq_nil.mp none
  rw [List.singleton_append]
  simp only [expect, Token.is_iff.mpr same, if_true]
  rfl

theorem optionally_complete {m : Mark} {present : Bool} {used rest : List Token}
    (spell : lexemes used = m.times present) (stop : nextIs m rest = false) (last : Nat) :
    ∃ last' noLonger, optionally m last (used ++ rest) = ⟨present, last', rest, noLonger⟩ := by
  cases present with
  | true =>
    obtain ⟨t, us, rfl, mark, none⟩ := lexemes_eq_cons.mp spell
    obtain rfl := lexemes_eq_nil.mp none
    exact ⟨t.stop, by simp, if_pos (Token.is_iff.mpr mark)⟩
  | false =>
    obtain rfl := lexemes_eq_nil.mp spell
    cases rest with
    | nil => exact ⟨last, by simp, rfl⟩
    | cons t rest => exact ⟨last, by simp, if_neg (by simpa [nextIs] using stop)⟩

/-! ### Lists -/

section
variable {item : Reader α} {P : Phrase α} {more : List Token → Bool}
  (complete : Complete item P more)
include complete

theorem many_complete {m : Mark} {joins : List Token → Bool}
    (goes : ∀ {t : Token} {v : α} {used : List Token} (rest : List Token), t.lexeme = .mark m →
      P v (lexemes used) → joins (t :: (used ++ rest)) = true)
    (halts : Halts more m) {vs : List α} {ls : List Lexeme} (h : Further m P vs ls)
    {used rest : List Token} (spell : lexemes used = ls) (stop : joins rest = false)
    (after : more rest = false) (last : Nat) :
    Trails (many joins item last (used ++ rest)) vs rest := by
  induction h generalizing used last with
  | nil =>
    obtain rfl := lexemes_eq_nil.mp spell
    rw [List.nil_append]
    cases rest with
    | nil => rw [many]; rfl
    | cons t rest => rw [many, if_neg (by simp [stop])]; rfl
  | cons first others ih =>
    obtain ⟨t, us, rfl, mark, items⟩ := lexemes_eq_cons.mp spell
    obtain ⟨xs, ys, rfl, rfl, left⟩ := lexemes_eq_append.mp items
    have halted : more (ys ++ rest) = false := by
      cases others with
      | nil => rw [lexemes_eq_nil.mp left]; exact after
      | cons other others =>
        obtain ⟨u, ys, rfl, mark, -⟩ := lexemes_eq_cons.mp left
        exact halts mark
    obtain ⟨last', shorter, read⟩ := (complete first rfl halted).ok
    obtain ⟨last'', noLonger, readOthers⟩ := (ih left last').ok
    rw [List.cons_append, List.append_assoc, many, if_pos (goes _ mark first), read]
    simp only [bind, Except.bind, readOthers]
    rfl

theorem listing_complete {close : Mark}
    (opens : ∀ ⦃v : α⦄ ⦃ls : List Lexeme⦄, P v ls → ∃ l more, ls = l :: more ∧ l ≠ .mark close)
    (comma : Halts more .comma) (closed : Halts more close) (other : close ≠ .comma) :
    Complete (listing close item) (Listed close P) fun _ => false := by
  intro vs ls h used rest spell _
  have enters {x : α} {ls : List Lexeme} (first : P x ls) {us ts : List Token}
      (spell : lexemes us = ls) : nextIs close (us ++ ts) = false := by
    obtain ⟨l, more, rfl, different⟩ := opens first
    obtain ⟨t, us, rfl, rfl, -⟩ := lexemes_eq_cons.mp spell
    exact decide_eq_false different
  induction h generalizing used with
  | nil =>
    obtain ⟨t, us, rfl, same, none⟩ := lexemes_eq_cons.mp spell
    obtain rfl := lexemes_eq_nil.mp none
    have next : nextIs close (t :: rest) = true := Token.is_iff.mpr same
    have taken : expect close (t :: rest) = .ok ⟨(), t.stop, rest, Nat.lt_succ_self _⟩ := if_pos next
    rw [List.singleton_append, listing, if_pos next, taken]
    rfl
  | last first =>
    obtain ⟨xs, ys, rfl, rfl, left⟩ := lexemes_eq_append.mp spell
    obtain ⟨t, ys, rfl, mark, none⟩ := lexemes_eq_cons.mp left
    obtain rfl := lexemes_eq_nil.mp none
    rw [List.append_assoc, List.singleton_append]
    obtain ⟨last, shorter, read⟩ := (complete first rfl (closed mark)).ok
    rw [listing, if_neg (by simp [enters first rfl]), read]
    simp only [bind, Except.bind, Token.is_of mark, other, decide_false, decide_true, if_true]
    rfl
  | cons first others ih =>
    obtain ⟨xs, ys, rfl, rfl, left⟩ := lexemes_eq_append.mp spell
    obtain ⟨t, ys, rfl, mark, left⟩ := lexemes_eq_cons.mp left
    rw [List.append_assoc, List.cons_append]
    obtain ⟨last, shorter, read⟩ := (complete first rfl (comma mark)).ok
    obtain ⟨last', shorter', readOthers⟩ := (ih left).ok
    rw [listing, if_neg (by simp [enters first rfl]), read]
    simp only [bind, Except.bind, Token.is_of mark, decide_true, if_true, readOthers]
    rfl

end

/-! ### What goes on -/

def continuesAtom (ts : List Token) : Bool :=
  nextIs .openAngle ts || nextIs .openCurly ts || nextIs .openParen ts || nextIs .doubleColon ts ||
    nextIs .star ts

def continuesOperand (ts : List Token) : Bool := continuesAtom ts || atSuffix ts

def continuesMeet (ts : List Token) : Bool := continuesOperand ts || atIntersection ts

def continuesType (ts : List Token) : Bool := continuesMeet ts || nextIs .pipe ts

/-- Lexemes with which no type goes on, whatever stands behind them. -/
def Lexeme.endsType : Lexeme → Bool
  | .mark m => m ∉ [Mark.openAngle, .openCurly, .openParen, .doubleColon, .star, .openSquare, .amp, .pipe]
  | _ => true

theorem continuesAtom_mark {m : Mark} (plain : m ≠ .openAngle ∧ m ≠ .openCurly ∧ m ≠ .openParen ∧
    m ≠ .doubleColon ∧ m ≠ .star) : Halts continuesAtom m := by
  intro t ts mark
  simp [continuesAtom, nextIs, Token.is_of mark, plain]

theorem atSuffix_mark {m : Mark} (plain : m ≠ .openSquare) : Halts atSuffix m := by
  intro t ts mark
  cases ts <;> simp [atSuffix, Token.is_of mark, plain]

theorem atIntersection_mark {m : Mark} (plain : m ≠ .amp) : Halts atIntersection m := by
  intro t ts mark
  cases ts <;> simp [atIntersection, Token.is_of mark, plain]

theorem continuesType_of_endsType {t : Token} (h : t.lexeme.endsType = true) (ts : List Token) :
    continuesType (t :: ts) = false := by
  have no (m : Mark) (out : (Lexeme.mark m).endsType = false) : t.is m = false :=
    decide_eq_false fun same => by rw [same, out] at h; cases h
  have suffix : atSuffix (t :: ts) = false := by cases ts <;> simp [atSuffix, no .openSquare rfl]
  have meet : atIntersection (t :: ts) = false := by cases ts <;> simp [atIntersection, no .amp rfl]
  simp [continuesType, continuesMeet, continuesOperand, continuesAtom, nextIs, suffix, meet,
    no .openAngle rfl, no .openCurly rfl, no .openParen rfl, no .doubleColon rfl, no .star rfl,
    no .pipe rfl]

theorem continuesType_mark {m : Mark} (ends : (Lexeme.mark m).endsType = true) :
    Halts continuesType m :=
  fun mark => continuesType_of_endsType (mark ▸ ends) _

/-! ### Types over a given atom -/

structure CompleteAtom (atom : Reader Node) (A : Atoms) : Prop where
  closed : Complete atom A.closed continuesAtom
  signature : Complete atom A.signature continuesOperand
  shaped : A.Shaped

/-- Suffixes are taken one by one, so a spelling with them leads to where they have been taken. -/
theorem suffixed_complete {atom : Reader Node} {base : Phrase Node}
    (complete : Complete atom base continuesAtom) {v : Node} {ls : List Lexeme}
    (h : Suffixed base v ls) {used rest : List Token} (spell : lexemes used = ls)
    (stop : continuesAtom rest = false) :
    ∃ first last, atom (used ++ rest) = .ok first ∧
      (suffixes first.value first.last first.rest).value = (suffixes v last rest).value ∧
      (suffixes first.value first.last first.rest).rest = (suffixes v last rest).rest := by
  induction h generalizing used rest with
  | base plain =>
    obtain ⟨last, shorter, read⟩ := (complete plain spell stop).ok
    exact ⟨_, last, read, rfl, rfl⟩
  | array item ih =>
    obtain ⟨xs, ys, rfl, inner, left⟩ := lexemes_eq_append.mp spell
    obtain ⟨t, ys, rfl, openMark, left⟩ := lexemes_eq_cons.mp left
    obtain ⟨u, ys, rfl, closeMark, none⟩ := lexemes_eq_cons.mp left
    obtain rfl := lexemes_eq_nil.mp none
    rw [List.append_assoc, List.cons_append, List.singleton_append]
    obtain ⟨first, last, read, value, after⟩ :=
      ih inner (continuesAtom_mark (by decide) openMark : continuesAtom (t :: u :: rest) = false)
    have brackets : (t.is .openSquare && u.is .closeSquare) = true := by
      simp [Token.is_of openMark, Token.is_of closeMark]
    rw [suffixes_brackets brackets] at value after
    exact ⟨first, u.stop, read, value, after⟩

section
variable {atom : Reader Node} {A : Atoms} (complete : CompleteAtom atom A)
include complete

theorem postfixed_complete : Complete (postfixed atom) (IsOperand A) continuesOperand := by
  intro v ls h used rest spell stop
  obtain ⟨stopAtom, stopSuffix⟩ := Bool.or_eq_false_iff.mp stop
  cases h with
  | closed closed =>
    obtain ⟨first, last, read, value, after⟩ := suffixed_complete complete.closed closed spell stopAtom
    rw [suffixes_stop stopSuffix] at value after
    simp only [postfixed, read, bind, Except.bind]
    exact congrArg Except.ok (Prod.ext value after)
  | signature signature =>
    obtain ⟨last, shorter, read⟩ := (complete.signature signature spell stop).ok
    simp only [postfixed, read, bind, Except.bind, suffixes_stop stopSuffix]
    rfl

theorem nullable_complete : Complete (nullable atom) (IsMember A) continuesOperand := by
  intro v ls h used rest spell stop
  have operand := postfixed_complete complete
  cases h with
  | operand plain =>
    have read := operand plain spell stop
    have unquestioned := IsOperand.unquestioned complete.shaped plain
    obtain ⟨l, more, rfl, -⟩ := (IsOperand.shaped complete.shaped plain).opens
    obtain ⟨t, us, rfl, rfl, -⟩ := lexemes_eq_cons.mp spell
    have no : ¬ t.is .question = true := fun isMark =>
      unquestioned (congrArg some (Token.lexeme_of_is isMark))
    rw [List.cons_append] at read ⊢
    rw [nullable, if_neg no]
    exact read
  | nullable inner =>
    obtain ⟨t, us, rfl, mark, left⟩ := lexemes_eq_cons.mp spell
    obtain ⟨last, shorter, read⟩ := (operand inner left stop).ok
    simp only [List.cons_append, nullable, Token.is_iff.mpr mark, if_true, read, bind, Except.bind]
    rfl

end

theorem joined_complete {item : Reader Node} {P : Phrase Node} {more joins : List Token → Bool}
    {m : Mark} {wrap : List Node → Node} (complete : Complete item P more)
    (goes : ∀ {t : Token} {v : Node} {used : List Token} (rest : List Token), t.lexeme = .mark m →
      P v (lexemes used) → joins (t :: (used ++ rest)) = true)
    (halts : Halts more m) :
    Complete (joined joins wrap item) (Joined m wrap P) fun ts => more ts || joins ts := by
  intro v ls h used rest spell stop
  obtain ⟨after, stop⟩ := Bool.or_eq_false_iff.mp stop
  cases h with
  | single first =>
    obtain ⟨last, shorter, read⟩ := (complete first spell after).ok
    have none := many_complete complete goes halts .nil lexemes_nil stop after last
    rw [List.nil_append] at none
    obtain ⟨last', noLonger, readOthers⟩ := none.ok
    simp only [joined, read, bind, Except.bind, readOthers]
    rfl
  | several first others =>
    obtain ⟨xs, ys, rfl, rfl, left⟩ := lexemes_eq_append.mp spell
    have halted : more (ys ++ rest) = false := by
      cases others with
      | cons other others =>
        obtain ⟨u, ys, rfl, mark, -⟩ := lexemes_eq_cons.mp left
        exact halts mark
    obtain ⟨last, shorter, read⟩ := (complete first rfl halted).ok
    obtain ⟨last', noLonger, readOthers⟩ :=
      (many_complete complete goes halts others left stop after last).ok
    rw [List.append_assoc]
    simp only [joined, read, bind, Except.bind, readOthers]
    rfl

theorem typeOver_complete {atom : Reader Node} {A : Atoms} (complete : CompleteAtom atom A) :
    Complete (typeOver atom) (IsType A) continuesType := by
  have meet : Complete (intersection atom) (IsMeet A) continuesMeet := by
    refine joined_complete (nullable_complete complete) ?_ ?_
    · intro t v used rest mark member
      obtain ⟨l, more, same, opens⟩ := (IsMember.shaped complete.shaped member).opens
      obtain ⟨u, us, rfl, rfl, -⟩ := lexemes_eq_cons.mp same
      simp only [List.cons_append, atIntersection, Token.is_iff.mpr mark, Bool.true_and]
      split
      next name var => rw [var] at opens; simp [Lexeme.opensType] at opens
      next ellipsis => rw [ellipsis] at opens; simp [Lexeme.opensType] at opens
      next => rfl
    · intro t ts mark
      rw [continuesOperand, continuesAtom_mark (by decide) mark, atSuffix_mark (by decide) mark]
      rfl
  refine joined_complete meet (fun rest mark _ => Token.is_iff.mpr mark) ?_
  intro t ts mark
  rw [continuesMeet, continuesOperand, continuesAtom_mark (by decide) mark,
    atSuffix_mark (by decide) mark, atIntersection_mark (by decide) mark]
  rfl

/-! ### Shapes -/

def atSeparator (close : Mark) (ts : List Token) : Bool := nextIs .comma ts || nextIs close ts

theorem atSeparator_comma (close : Mark) : Halts (!atSeparator close ·) .comma := by
  intro t ts mark
  simp [atSeparator, nextIs, Token.is_of mark]

theorem atSeparator_close (close : Mark) : Halts (!atSeparator close ·) close := by
  intro t ts mark
  simp [atSeparator, nextIs, Token.is_of mark]

theorem of_atSeparator {close : Mark} {ts : List Token} (h : (!atSeparator close ts) = false) :
    ∃ t us, ts = t :: us ∧ (t.lexeme = .mark .comma ∨ t.lexeme = .mark close) := by
  cases ts with
  | nil => simp [atSeparator, nextIs] at h
  | cons t us =>
    simp only [atSeparator, nextIs, Bool.not_eq_false', Bool.or_eq_true, Token.is_iff] at h
    exact ⟨t, us, rfl, h⟩

theorem continuesType_of_atSeparator {close : Mark} (ends : (Lexeme.mark close).endsType = true) {ts : List Token}
    (h : (!atSeparator close ts) = false) : continuesType ts = false := by
  obtain ⟨t, us, rfl, comma | closed⟩ := of_atSeparator h
  · exact continuesType_mark (by decide) comma
  · exact continuesType_mark ends closed

theorem takeSlot_unkeyed {used rest : List Token} (unkeyed : isUnkeyed (lexemes used) = true)
    (some : used ≠ []) (stop : (!atSeparator .closeCurly rest) = false) :
    takeSlot (used ++ rest) = none := by
  obtain ⟨k, us, rfl⟩ := List.exists_cons_of_ne_nil some
  obtain ⟨u, tail, tokens, plain⟩ : ∃ u tail, us ++ rest = u :: tail ∧
      ((shapeKey? k.lexeme).isNone = true ∨
        u.lexeme ≠ .mark .colon ∧ u.lexeme ≠ .mark .question) := by
    cases us with
    | nil =>
      obtain ⟨u, tail, rfl, mark⟩ := of_atSeparator stop
      exact ⟨u, tail, rfl, .inr (by rcases mark with same | same <;> simp [same])⟩
    | cons u us => exact ⟨u, us ++ rest, rfl, by simpa [isUnkeyed] using unkeyed⟩
  rw [List.cons_append, tokens]
  rcases plain with keyless | ⟨noColon, noQuestion⟩
  · simp [takeSlot, Option.isNone_iff_eq_none.mp keyless]
  · have colon : u.is .colon = false := by simpa [Token.is] using noColon
    have question : u.is .question = false := by simpa [Token.is] using noQuestion
    simp only [takeSlot, colon, question, Bool.false_and]
    cases shapeKey? k.lexeme <;> cases tail <;> rfl

theorem takeSlot_keyed {k : Token} {key : ShapeKey} {optional : Bool} {front : List Token}
    (isKey : shapeKey? k.lexeme = some key)
    (marks : lexemes front = Mark.question.times optional ++ [.mark .colon]) (ts : List Token) :
    ∃ fewer, takeSlot (k :: (front ++ ts)) = some (⟨some key, optional⟩, ⟨ts, fewer⟩) := by
  cases optional with
  | false =>
    obtain ⟨t, us, rfl, colon, none⟩ := lexemes_eq_cons.mp marks
    obtain rfl := lexemes_eq_nil.mp none
    exact ⟨by simp only [List.singleton_append, List.length_cons]; omega,
      by simp [takeSlot, isKey, Token.is_of colon]⟩
  | true =>
    obtain ⟨t, us, rfl, question, left⟩ := lexemes_eq_cons.mp marks
    obtain ⟨u, us, rfl, colon, none⟩ := lexemes_eq_cons.mp left
    obtain rfl := lexemes_eq_nil.mp none
    exact ⟨by simp only [List.cons_append, List.nil_append, List.length_cons]; omega,
      by simp [takeSlot, isKey, Token.is_of question, Token.is_of colon]⟩

section
variable {type : Reader Node} {P : Phrase Node} (complete : Complete type P continuesType)
  (known : IsShapedPhrase P)
include complete known

theorem shapeItem_complete :
    Complete (shapeItem type) (IsItem P) (!atSeparator .closeCurly ·) := by
  intro x ls h used rest spell stop
  have after := continuesType_of_atSeparator rfl stop
  cases h with
  | bare value =>
    subst spell
    obtain ⟨last, shorter, read⟩ := (complete value rfl after).ok
    have some : used ≠ [] := by
      rintro rfl
      obtain ⟨l, more, none, -⟩ := (known value).opens
      cases none
    simp only [shapeItem, takeSlot_unkeyed (known value).unkeyed some stop, read, bind, Except.bind]
    rfl
  | keyed optional isKey value =>
    obtain ⟨k, us, rfl, rfl, tail⟩ := lexemes_eq_cons.mp spell
    rw [List.append_cons] at tail
    obtain ⟨front, xs, rfl, marks, rfl⟩ := lexemes_eq_append.mp tail
    obtain ⟨fewer, taken⟩ := takeSlot_keyed isKey marks (xs ++ rest)
    obtain ⟨last, shorter, read⟩ := (complete value rfl after).ok
    rw [List.cons_append, List.append_assoc]
    simp only [shapeItem, taken, read, bind, Except.bind]
    rfl

theorem objectItem_complete :
    Complete (objectItem type) (IsObjectItem P) (!atSeparator .closeCurly ·) := by
  rintro x ls ⟨item, key⟩ used rest spell stop
  obtain ⟨last, shorter, read⟩ := (shapeItem_complete complete known item spell stop).ok
  have keyed : x.1.key.isNone = false := by simpa using key
  simp only [objectItem, read, bind, Except.bind, keyed]
  rfl

theorem args_complete :
    Complete (listing .closeAngle type) (Listed .closeAngle P) fun _ => false := by
  refine listing_complete complete ?_ (continuesType_mark rfl) (continuesType_mark rfl) (by decide)
  intro v ls spelled
  obtain ⟨l, more, rfl, opens⟩ := (known spelled).opens
  exact ⟨l, more, rfl, by rintro rfl; exact absurd opens (by decide)⟩

theorem objectItems_complete :
    Complete (listing .closeCurly (objectItem type)) (Listed .closeCurly (IsObjectItem P))
      fun _ => false := by
  refine listing_complete (objectItem_complete complete known) ?_ (atSeparator_comma _)
    (atSeparator_close _) (by decide)
  rintro x ls ⟨item, -⟩
  obtain ⟨l, more, rfl, opens⟩ := IsItem.opens known item
  exact ⟨l, more, rfl, by rintro rfl; exact absurd opens (by decide)⟩

theorem shapeTail_complete {tail : Option (Option Node × Node)} {ls : List Lexeme}
    (h : IsTail P tail ls) {used rest : List Token} (spell : lexemes used = ls)
    (stop : nextIs .openAngle rest = false) (last : Nat) :
    Trails (shapeTail type last (used ++ rest)) tail rest := by
  have listed := args_complete complete known
  cases h with
  | none =>
    obtain rfl := lexemes_eq_nil.mp spell
    rw [List.nil_append]
    cases rest with
    | nil => rfl
    | cons t rest => rw [shapeTail, if_neg (by simpa [nextIs] using stop)]; rfl
  | value args =>
    obtain ⟨t, us, rfl, mark, args'⟩ := lexemes_eq_cons.mp spell
    obtain ⟨last, shorter, read⟩ := (listed args args' rfl).ok
    rw [List.cons_append, shapeTail, if_pos (Token.is_iff.mpr mark), read]
    rfl
  | entry args =>
    obtain ⟨t, us, rfl, mark, args'⟩ := lexemes_eq_cons.mp spell
    obtain ⟨last, shorter, read⟩ := (listed args args' rfl).ok
    rw [List.cons_append, shapeTail, if_pos (Token.is_iff.mpr mark), read]
    rfl

theorem shapeBody_complete : Complete (shapeBody type) (IsShapeBody P) fun _ => false := by
  intro body ls h used rest spell _
  have item := shapeItem_complete complete known
  have enters {x : Slot × Node} {us : List Token} (first : IsItem P x (lexemes us)) (ts : List Token) :
      ∃ t tail, us ++ ts = t :: tail ∧ t.is .closeCurly = false ∧ t.is .ellipsis = false := by
    obtain ⟨l, more, same, opens⟩ := IsItem.opens known first
    obtain ⟨t, us, rfl, rfl, -⟩ := lexemes_eq_cons.mp same
    refine ⟨t, us ++ ts, rfl, ?_, ?_⟩ <;> refine decide_eq_false fun mark => ?_ <;>
      exact absurd opens (by rw [mark]; decide)
  induction h generalizing used with
  | close =>
    obtain ⟨t, us, rfl, mark, none⟩ := lexemes_eq_cons.mp spell
    obtain rfl := lexemes_eq_nil.mp none
    rw [List.singleton_append, shapeBody, if_pos (Token.is_iff.mpr mark)]
    rfl
  | unsealed comma args =>
    obtain ⟨t, us, rfl, mark, left⟩ := lexemes_eq_cons.mp spell
    obtain ⟨xs, ys, rfl, tail, left⟩ := lexemes_eq_append.mp left
    obtain ⟨zs, ws, rfl, commas, left⟩ := lexemes_eq_append.mp left
    obtain ⟨u, ws, rfl, close, none⟩ := lexemes_eq_cons.mp left
    obtain rfl := lexemes_eq_nil.mp none
    rw [List.cons_append, List.append_assoc, List.append_assoc, List.singleton_append]
    have stop : nextIs .openAngle (zs ++ u :: rest) = false := by
      cases comma with
      | true =>
        obtain ⟨v, zs, rfl, mark, -⟩ := lexemes_eq_cons.mp commas
        simp [nextIs, Token.is_of mark]
      | false =>
        rw [lexemes_eq_nil.mp commas]
        simp [nextIs, Token.is_of close]
    obtain ⟨last, noLonger, read⟩ := (shapeTail_complete complete known args tail stop t.stop).ok
    have closes : nextIs .comma (u :: rest) = false := by simp [nextIs, Token.is_of close]
    obtain ⟨last', noLonger', skip⟩ := optionally_complete commas closes last
    have closing : Reads (expect .closeCurly (optionally .comma last (zs ++ u :: rest)).rest) () rest := by
      rw [skip]
      exact expect_complete .closeCurly rfl left rfl
    obtain ⟨last'', shorter, taken⟩ := closing.ok
    rw [shapeBody, if_neg (by simp [Token.is_of mark]), if_pos (Token.is_iff.mpr mark), read]
    simp only [bind, Except.bind, taken]
    rfl
  | last first =>
    obtain ⟨xs, ys, rfl, rfl, left⟩ := lexemes_eq_append.mp spell
    obtain ⟨u, ys, rfl, mark, none⟩ := lexemes_eq_cons.mp left
    obtain rfl := lexemes_eq_nil.mp none
    have reads := item first rfl (atSeparator_close _ mark : (!atSeparator _ (u :: rest)) = false)
    obtain ⟨t, tail, same, noClose, noEllipsis⟩ := enters first (u :: rest)
    rw [List.append_assoc, List.singleton_append]
    rw [same] at reads ⊢
    obtain ⟨last, shorter, read⟩ := reads.ok
    rw [shapeBody, if_neg (by simp [noClose]), if_neg (by simp [noEllipsis]), read]
    simp only [bind, Except.bind, Token.is_of mark, decide_true, if_true]
    rfl
  | cons first others ih =>
    obtain ⟨xs, ys, rfl, rfl, left⟩ := lexemes_eq_append.mp spell
    obtain ⟨u, ys, rfl, mark, left⟩ := lexemes_eq_cons.mp left
    have reads := item first rfl (atSeparator_comma _ mark : (!atSeparator _ (u :: (ys ++ rest))) = false)
    obtain ⟨last', shorter', readOthers⟩ := (ih left).ok
    obtain ⟨t, tail, same, noClose, noEllipsis⟩ := enters first (u :: (ys ++ rest))
    rw [List.append_assoc, List.cons_append]
    rw [same] at reads ⊢
    obtain ⟨last, shorter, read⟩ := reads.ok
    rw [shapeBody, if_neg (by simp [noClose]), if_neg (by simp [noEllipsis]), read]
    simp only [bind, Except.bind, Token.is_of mark, decide_true, if_true, readOthers]
    rfl

end

/-! ### Signatures -/

theorem variableName_complete {name : Option String} {used rest : List Token}
    (spell : lexemes used = sigiled name) (stop : ∀ x, (lexemes rest).head? ≠ some (.var x)) (last : Nat) :
    ∃ last' noLonger, variableName last (used ++ rest) = ⟨name, last', rest, noLonger⟩ := by
  cases name with
  | some name =>
    obtain ⟨t, us, rfl, var, none⟩ := lexemes_eq_cons.mp spell
    obtain rfl := lexemes_eq_nil.mp none
    exact ⟨t.stop, by simp, by simp [variableName, var]⟩
  | none =>
    obtain rfl := lexemes_eq_nil.mp spell
    cases rest with
    | nil => exact ⟨last, by simp, rfl⟩
    | cons t rest =>
      refine ⟨last, by simp, ?_⟩
      simp only [List.nil_append, variableName]
      split
      next x var => exact absurd (congrArg some var) (stop x)
      next => rfl

theorem marks_complete {marks : ParamMarks} {used rest : List Token} (spell : lexemes used = marks.spell)
    (stop : (!atSeparator .closeParen rest) = false) (last : Nat) :
    ∃ byRef variadic name optional, optionally .amp last (used ++ rest) = byRef ∧
      optionally .ellipsis byRef.last byRef.rest = variadic ∧
      variableName variadic.last variadic.rest = name ∧
      optionally .equal name.last name.rest = optional ∧
      marks = ⟨byRef.value, variadic.value, name.value, optional.value⟩ ∧ optional.rest = rest := by
  obtain ⟨t, us, rfl, after⟩ := of_atSeparator stop
  obtain ⟨byRef, variadic, name, optional⟩ := marks
  obtain ⟨as, others, rfl, amp, spell⟩ := lexemes_eq_append.mp spell
  obtain ⟨bs, others, rfl, ellipsis, spell⟩ := lexemes_eq_append.mp spell
  obtain ⟨cs, ds, rfl, var, equal⟩ := lexemes_eq_append.mp spell
  have stopEqual : nextIs .equal (t :: us) = false := by
    rcases after with mark | mark <;> simp [nextIs, Token.is_of mark]
  have stopVar : ∀ x, (lexemes (ds ++ t :: us)).head? ≠ some (.var x) := by
    intro x
    rcases after with mark | mark <;> cases optional <;> simp_all [Mark.times]
  have stopEllipsis : nextIs .ellipsis (cs ++ (ds ++ t :: us)) = false := by
    rcases after with mark | mark <;> cases name <;> cases optional <;>
      simp_all [nextIs_eq, sigiled, Mark.times]
  have stopAmp : nextIs .amp (bs ++ (cs ++ (ds ++ t :: us))) = false := by
    rcases after with mark | mark <;> cases variadic <;> cases name <;> cases optional <;>
      simp_all [nextIs_eq, sigiled, Mark.times]
  obtain ⟨l₁, _, first⟩ := optionally_complete amp stopAmp last
  obtain ⟨l₂, _, second⟩ := optionally_complete ellipsis stopEllipsis l₁
  obtain ⟨l₃, _, third⟩ := variableName_complete var stopVar l₂
  obtain ⟨l₄, _, fourth⟩ := optionally_complete equal stopEqual l₃
  have assoc : as ++ (bs ++ (cs ++ ds)) ++ t :: us = as ++ (bs ++ (cs ++ (ds ++ t :: us))) := by simp
  rw [assoc]
  exact ⟨_, _, _, _, first, second, third, fourth, rfl, rfl⟩

theorem continuesType_marks {marks : ParamMarks} (apart : marks.IsApart) {used rest : List Token}
    (spell : lexemes used = marks.spell) (stop : (!atSeparator .closeParen rest) = false) :
    continuesType (used ++ rest) = false := by
  obtain ⟨byRef, variadic, name, optional⟩ := marks
  obtain ⟨t, us, rfl, after⟩ := of_atSeparator stop
  obtain ⟨as, others, rfl, amp, tail⟩ := lexemes_eq_append.mp spell
  obtain ⟨u, vs, first, opens⟩ : ∃ u vs, others ++ t :: us = u :: vs ∧
      (variadic = true ∧ u.lexeme = .mark .ellipsis ∨ (∃ x, name = some x ∧ u.lexeme = .var x) ∨
        variadic = false ∧ name = none ∧ u.lexeme.endsType = true) := by
    obtain ⟨bs, others, rfl, ellipsis, tail⟩ := lexemes_eq_append.mp tail
    obtain ⟨cs, ds, rfl, var, equal⟩ := lexemes_eq_append.mp tail
    cases variadic with
    | true =>
      obtain ⟨u, bs, rfl, same, -⟩ := lexemes_eq_cons.mp ellipsis
      exact ⟨u, _, rfl, .inl ⟨rfl, same⟩⟩
    | false =>
    obtain rfl := lexemes_eq_nil.mp ellipsis
    cases name with
    | some x =>
      obtain ⟨u, cs, rfl, same, -⟩ := lexemes_eq_cons.mp var
      exact ⟨u, _, rfl, .inr (.inl ⟨x, rfl, same⟩)⟩
    | none =>
    obtain rfl := lexemes_eq_nil.mp var
    cases optional with
    | true =>
      obtain ⟨u, ds, rfl, same, -⟩ := lexemes_eq_cons.mp equal
      exact ⟨u, _, rfl, .inr (.inr ⟨rfl, rfl, by rw [same]; rfl⟩)⟩
    | false =>
      obtain rfl := lexemes_eq_nil.mp equal
      exact ⟨t, us, rfl, .inr (.inr ⟨rfl, rfl, by rcases after with same | same <;> rw [same] <;> rfl⟩)⟩
  have ends : u.lexeme.endsType = true := by
    rcases opens with ⟨-, same⟩ | ⟨x, -, same⟩ | ⟨-, -, ends⟩ <;> first | exact ends | (rw [same]; rfl)
  rw [List.append_assoc, first]
  cases byRef with
  | true =>
    obtain ⟨v, as, rfl, mark, none⟩ := lexemes_eq_cons.mp amp
    obtain rfl := lexemes_eq_nil.mp none
    have meet : atIntersection (v :: u :: vs) = false := by
      rcases opens with ⟨-, same⟩ | ⟨x, -, same⟩ | ⟨rfl, rfl, -⟩
      · simp [atIntersection, same]
      · simp [atIntersection, same]
      · exact absurd (apart rfl) (by simp)
    rw [List.singleton_append, continuesType, continuesMeet, continuesOperand,
      continuesAtom_mark (by decide) mark, atSuffix_mark (by decide) mark, meet]
    simp [nextIs, Token.is_of mark]
  | false =>
    obtain rfl := lexemes_eq_nil.mp amp
    exact continuesType_of_endsType ends vs

section
variable {atom : Reader Node} {A : Atoms} (complete : CompleteAtom atom A)
include complete

theorem param_complete :
    Complete (param (typeOver atom)) (IsParam (IsType A)) (!atSeparator .closeParen ·) := by
  rintro _ _ ⟨plain, apart⟩ used rest spell stop
  obtain ⟨xs, ys, rfl, typed, marked⟩ := lexemes_eq_append.mp spell
  have after : continuesType (ys ++ rest) = false := continuesType_marks apart marked stop
  obtain ⟨last, shorter, read⟩ := (typeOver_complete complete plain typed after).ok
  obtain ⟨_, _, _, _, rfl, rfl, rfl, rfl, rfl, left⟩ := marks_complete marked stop last
  rw [List.append_assoc]
  simp only [param, read, bind, Except.bind]
  exact congrArg Except.ok (Prod.ext rfl left)

theorem signature_complete (name : String) {params : List (Node × ParamMarks)} {result : Node}
    {front more : List Lexeme} (listed : Listed .closeParen (IsParam (IsType A)) params front)
    (returned : IsMember A result more) {used rest : List Token}
    (spell : lexemes used = front ++ .mark .colon :: more) (stop : continuesOperand rest = false) :
    Reads (signature atom name (used ++ rest)) (.callable name params result) rest := by
  have params : Complete (listing .closeParen (param (typeOver atom)))
      (Listed .closeParen (IsParam (IsType A))) fun _ => false := by
    refine listing_complete (param_complete complete) ?_ (atSeparator_comma _) (atSeparator_close _)
      (by decide)
    rintro v ls ⟨plain, apart⟩
    obtain ⟨l, more, rfl, opens⟩ := (IsType.shaped complete.shaped plain).opens
    exact ⟨_, _, rfl, by rintro rfl; exact absurd opens (by decide)⟩
  obtain ⟨xs, ys, rfl, first, left⟩ := lexemes_eq_append.mp spell
  obtain ⟨t, ys, rfl, colon, second⟩ := lexemes_eq_cons.mp left
  have reads : Reads (listing .closeParen (param (typeOver atom)) (xs ++ t :: (ys ++ rest))) _ _ :=
    params listed first rfl
  obtain ⟨last, shorter, read⟩ := reads.ok
  obtain ⟨last', shorter', readResult⟩ := (nullable_complete complete returned second stop).ok
  have taken : expect .colon (t :: (ys ++ rest)) = .ok ⟨(), t.stop, ys ++ rest, Nat.lt_succ_self _⟩ :=
    if_pos (Token.is_iff.mpr colon)
  rw [List.append_assoc, List.cons_append]
  simp only [signature, read, bind, Except.bind, taken, readResult]
  rfl

end

/-! ### Constants -/

theorem constFetch_complete (owner : String) :
    Complete (constFetch owner) (IsFetch owner) (nextIs .star) := by
  intro v ls h used rest spell stop
  cases h with
  | name text =>
    obtain ⟨t, us, rfl, name, none⟩ := lexemes_eq_cons.mp spell
    have absent : lexemes us = Mark.star.times false := none
    obtain ⟨_, _, skip⟩ := optionally_complete absent stop t.stop
    rw [List.cons_append]
    simp only [constFetch, name, skip]
    rfl
  | wild text =>
    obtain ⟨t, us, rfl, name, star⟩ := lexemes_eq_cons.mp spell
    have present : lexemes us = Mark.star.times true := star
    obtain ⟨_, _, taken⟩ := optionally_complete present stop t.stop
    rw [List.cons_append]
    simp only [constFetch, name, taken]
    rfl
  | star =>
    obtain ⟨t, us, rfl, star, none⟩ := lexemes_eq_cons.mp spell
    obtain rfl := lexemes_eq_nil.mp none
    rw [List.singleton_append]
    simp only [constFetch, star]
    rfl

theorem constItem_complete {const : Reader Const} {P : Phrase Const}
    (complete : Complete const P continuesAtom) :
    Complete (constItem const) (IsConstItem P) (!atSeparator .closeSquare ·) := by
  intro x ls h used rest spell stop
  obtain ⟨t, us, rfl, after⟩ := of_atSeparator stop
  have stop : continuesAtom (t :: us) = false := by
    rcases after with mark | mark <;> exact continuesAtom_mark (by decide) mark
  have noArrow : t.is .arrow = false := by
    rcases after with mark | mark <;> simp [Token.is_of mark]
  cases h with
  | plain value =>
    obtain ⟨last, shorter, read⟩ := (complete value spell stop).ok
    simp only [constItem, read, bind, Except.bind, noArrow]
    rfl
  | entry key value =>
    obtain ⟨xs, ys, rfl, first, left⟩ := lexemes_eq_append.mp spell
    obtain ⟨u, ys, rfl, arrow, second⟩ := lexemes_eq_cons.mp left
    have halted : continuesAtom (u :: (ys ++ t :: us)) = false := continuesAtom_mark (by decide) arrow
    obtain ⟨last, shorter, read⟩ := (complete key first halted).ok
    obtain ⟨last', shorter', readValue⟩ := (complete value second stop).ok
    rw [List.append_assoc, List.cons_append]
    simp only [constItem, read, bind, Except.bind, Token.is_iff.mpr arrow, if_true, readValue]
    rfl

theorem opensConst_ne_close {budget : Nat} {v : Const} {ls : List Lexeme} (h : IsConst budget v ls) :
    ∃ l more, ls = l :: more ∧ l ≠ .mark .closeSquare := by
  obtain ⟨l, more, rfl, starts⟩ := h.shaped.starts
  exact ⟨l, more, rfl, by rintro rfl; exact absurd starts (by decide)⟩

theorem constant_complete (budget : Nat) : Complete (constant budget) (IsConst budget) continuesAtom := by
  induction budget with
  | zero => exact fun _ _ h => h.elim
  | succ budget ih =>
    intro v ls h used rest spell stop
    cases h with
    | int value =>
      obtain ⟨t, us, rfl, same, none⟩ := lexemes_eq_cons.mp spell
      obtain rfl := lexemes_eq_nil.mp none
      rw [List.singleton_append, constant_int budget rest same]
      rfl
    | float value =>
      obtain ⟨t, us, rfl, same, none⟩ := lexemes_eq_cons.mp spell
      obtain rfl := lexemes_eq_nil.mp none
      rw [List.singleton_append, constant_float budget rest same]
      rfl
    | quoted text =>
      obtain ⟨t, us, rfl, same, none⟩ := lexemes_eq_cons.mp spell
      obtain rfl := lexemes_eq_nil.mp none
      rw [List.singleton_append, constant_quoted budget rest same]
      rfl
    | name text =>
      obtain ⟨t, us, rfl, same, none⟩ := lexemes_eq_cons.mp spell
      obtain rfl := lexemes_eq_nil.mp none
      have alone : nextIs .doubleColon rest = false := by
        simp only [continuesAtom, Bool.or_eq_false_iff] at stop
        exact stop.1.2
      rw [List.singleton_append, constant_name budget rest same alone]
      rfl
    | fetch fetched =>
      obtain ⟨t, us, rfl, same, left⟩ := lexemes_eq_cons.mp spell
      obtain ⟨u, us, rfl, colons, left⟩ := lexemes_eq_cons.mp left
      have star : nextIs .star rest = false := (Bool.or_eq_false_iff.mp stop).2
      obtain ⟨last, shorter, read⟩ := (constFetch_complete _ fetched left star).ok
      rw [List.cons_append, List.cons_append,
        constant_fetch budget (us ++ rest) same (Token.is_iff.mpr colons), read]
      rfl
    | array listed =>
      obtain ⟨t, us, rfl, same, left⟩ := lexemes_eq_cons.mp spell
      have items : Complete (listing .closeSquare (constItem (constant budget)))
          (Listed .closeSquare (IsConstItem (IsConst budget))) fun _ => false := by
        refine listing_complete (constItem_complete ih) ?_ (atSeparator_comma _) (atSeparator_close _)
          (by decide)
        rintro x ls (value | ⟨key, value⟩)
        · exact opensConst_ne_close value
        · obtain ⟨l, more, rfl, different⟩ := opensConst_ne_close key
          exact ⟨l, _, rfl, different⟩
      have reads : Reads (listing .closeSquare (constItem (constant budget)) (us ++ rest)) _ rest :=
        items listed left rfl
      obtain ⟨last, shorter, read⟩ := reads.ok
      rw [List.cons_append, constant_array budget (us ++ rest) same, read]
      rfl

/-! ### Atoms -/

theorem ShapeKind.ofName?_text (kind : ShapeKind) : ShapeKind.ofName? kind.text = some kind := by
  cases kind <;> decide

section
variable {atom : Reader Node} {A : Atoms} (complete : CompleteAtom atom A)
include complete

omit complete in
theorem afterName_bare {name : String} {rest : List Token} (stop : continuesAtom rest = false)
    (last : Nat) : Trails (afterName atom name last rest) (.name name) rest := by
  cases rest with
  | nil => rfl
  | cons t rest =>
    simp only [continuesAtom, nextIs, Bool.or_eq_false_iff] at stop
    obtain ⟨⟨⟨⟨angle, curly⟩, paren⟩, colons⟩, -⟩ := stop
    simp only [afterName]
    split
    next same => rw [Token.is_iff.mpr same] at angle; cases angle
    next same => rw [Token.is_iff.mpr same] at curly; cases curly
    next same => rw [Token.is_iff.mpr same] at paren; cases paren
    next same => rw [Token.is_iff.mpr same] at colons; cases colons
    next => rfl

theorem afterName_complete {const : Phrase Const} {v : Node} {name : String} {ls : List Lexeme}
    (h : ClosedOver const A v (.name name :: ls)) {used rest : List Token} (spell : lexemes used = ls)
    (stop : continuesAtom rest = false) (last : Nat) :
    Trails (afterName atom name last (used ++ rest)) v rest := by
  have type := typeOver_complete complete
  have known : IsShapedPhrase (IsType A) := IsType.shaped complete.shaped
  cases h with
  | const value opens => cases opens
  | name text =>
    obtain rfl := lexemes_eq_nil.mp spell
    rw [List.nil_append]
    exact afterName_bare stop last
  | fetch fetched =>
    obtain ⟨t, us, rfl, colons, left⟩ := lexemes_eq_cons.mp spell
    have star : nextIs .star rest = false := (Bool.or_eq_false_iff.mp stop).2
    obtain ⟨last, shorter, read⟩ := (constFetch_complete _ fetched left star).ok
    rw [List.cons_append]
    simp only [afterName, colons, read, bind, Except.bind]
    rfl
  | @generic _ arg args _ listed =>
    obtain ⟨t, us, rfl, angle, left⟩ := lexemes_eq_cons.mp spell
    have reads : Reads (listing .closeAngle (typeOver atom) (us ++ rest)) (arg :: args) rest :=
      args_complete type known listed left rfl
    obtain ⟨last, shorter, read⟩ := reads.ok
    rw [List.cons_append]
    simp only [afterName, angle, read, bind, Except.bind]
    rfl
  | @arrayShape body _ kind items =>
    obtain ⟨t, us, rfl, curly, left⟩ := lexemes_eq_cons.mp spell
    have reads : Reads (shapeBody (typeOver atom) (us ++ rest)) body rest :=
      shapeBody_complete type known items left rfl
    obtain ⟨last, shorter, read⟩ := reads.ok
    rw [List.cons_append]
    simp only [afterName, curly, ShapeKind.ofName?_text, read, bind, Except.bind]
    rfl
  | @objectShape fields _ listed =>
    obtain ⟨t, us, rfl, curly, left⟩ := lexemes_eq_cons.mp spell
    have reads : Reads (listing .closeCurly (objectItem (typeOver atom)) (us ++ rest)) fields rest :=
      objectItems_complete type known listed left rfl
    obtain ⟨last, shorter, read⟩ := reads.ok
    have noShape : ShapeKind.ofName? "object" = none := by decide
    rw [List.cons_append]
    simp only [afterName, curly, noShape, if_true, read, bind, Except.bind]
    rfl

end

theorem atom_complete (budget : Nat) : CompleteAtom (atom budget) (atoms budget) := by
  induction budget with
  | zero => exact ⟨fun _ _ h => h.elim, fun _ _ h => h.elim, atoms_shaped 0⟩
  | succ budget ih =>
    refine ⟨?_, ?_, atoms_shaped (budget + 1)⟩
    · intro v ls h used rest spell stop
      have named {name : String} {more : List Lexeme} (same : ls = .name name :: more) :
          Reads (atom (budget + 1) (used ++ rest)) v rest := by
        subst same
        obtain ⟨t, us, rfl, same, left⟩ := lexemes_eq_cons.mp spell
        obtain ⟨last, noLonger, read⟩ := (afterName_complete ih h left stop t.stop).ok
        rw [List.cons_append, atom_name budget (us ++ rest) same, read]
        rfl
      cases h with
      | group inner =>
        obtain ⟨t, us, rfl, mark, left⟩ := lexemes_eq_cons.mp spell
        obtain ⟨xs, ys, rfl, first, left⟩ := lexemes_eq_append.mp left
        obtain ⟨u, ys, rfl, close, none⟩ := lexemes_eq_cons.mp left
        obtain rfl := lexemes_eq_nil.mp none
        obtain ⟨last, shorter, read⟩ :=
          (typeOver_complete ih inner first (continuesType_mark rfl close : continuesType (u :: rest) = false)).ok
        have taken : expect .closeParen (u :: rest) = .ok ⟨(), u.stop, rest, Nat.lt_succ_self _⟩ :=
          if_pos (Token.is_iff.mpr close)
        rw [List.cons_append, List.append_assoc, List.singleton_append, atom_group budget _ mark, read]
        simp only [bind, Except.bind, taken]
        rfl
      | this =>
        obtain ⟨t, us, rfl, same, none⟩ := lexemes_eq_cons.mp spell
        obtain rfl := lexemes_eq_nil.mp none
        rw [List.singleton_append, atom_this budget rest same]
        rfl
      | const value opens =>
        have reads := constant_complete budget value spell stop
        obtain ⟨t, us, rfl, rfl, left⟩ := lexemes_eq_cons.mp spell
        rw [List.cons_append] at reads ⊢
        obtain ⟨last, shorter, read⟩ := reads.ok
        rw [atom_const budget (us ++ rest) opens, read]
        rfl
      | name | fetch | generic | arrayShape | objectShape => exact named rfl
    · rintro v ls @⟨name, _, _, _, _, callee, listed, returned⟩ used rest spell stop
      obtain ⟨t, us, rfl, word, left⟩ := lexemes_eq_cons.mp spell
      obtain ⟨u, us, rfl, paren, left⟩ := lexemes_eq_cons.mp left
      obtain ⟨last, shorter, read⟩ := (signature_complete ih name listed returned left stop).ok
      rw [List.cons_append, List.cons_append, atom_name budget _ word]
      simp only [afterName, paren, if_pos callee, read, bind, Except.bind]
      rfl

theorem typeRead_complete : Complete typeRead (IsType (atoms maxDepth)) continuesType :=
  typeOver_complete (atom_complete maxDepth)

end TypeHints.Hint
