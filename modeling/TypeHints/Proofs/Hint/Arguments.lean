import TypeHints.Proofs.Hint.Budget

namespace TypeHints.Hint
open Text

/-! ### What a type ends in -/

def Lexeme.comesLast : Lexeme → Bool
  | .name _ | .this | .int _ | .float _ | .quoted _ => true
  | .mark m =>
    m = .closeParen || m = .closeAngle || m = .closeSquare || m = .closeCurly || m = .star
  | _ => false

/-- What separates arguments closes whatever a type can end in: in particular, `>` makes no `=>`. -/
theorem Lexeme.closedBy_of_comesLast {l : Lexeme} (last : l.comesLast = true) {c : Char}
    (separates : c = ',' ∨ c = '>') : l.closedBy c = true := by
  have name : isNameChar c = false ∧ c ≠ '\\' ∧ c ≠ '.' ∧ c ≠ ':' := by
    rcases separates with rfl | rfl <;> decide
  have sigiled : isVariableChar c = false := by
    rcases separates with rfl | rfl <;> decide
  cases l with
  | mark m =>
    have plain : m ≠ .equal := by
      rintro rfl
      cases last
    simp [closedBy, name, plain]
  | _ => simp [closedBy, name, sigiled]

def Ends (ls : List Lexeme) : Prop := ∃ front l, ls = front ++ [l] ∧ l.comesLast = true

theorem ends_concat {l : Lexeme} (last : l.comesLast = true) (ls : List Lexeme) : Ends (ls ++ [l]) :=
  ⟨ls, l, rfl, last⟩

theorem ends_single {l : Lexeme} (last : l.comesLast = true) : Ends [l] := ends_concat last []

theorem Ends.behind {more : List Lexeme} (h : Ends more) (ls : List Lexeme) : Ends (ls ++ more) := by
  obtain ⟨front, l, rfl, last⟩ := h
  rw [← List.append_assoc]
  exact ends_concat last _

theorem Ends.cons {ls : List Lexeme} (h : Ends ls) (l : Lexeme) : Ends (l :: ls) := h.behind [l]

def EndsAll {α : Type} (P : Phrase α) : Prop := ∀ ⦃x ls⦄, P x ls → Ends ls

theorem Listed.ends {α : Type} {close : Mark} {P : Phrase α}
    (closes : (Lexeme.mark close).comesLast = true) : EndsAll (Listed close P) := by
  intro xs ls h
  induction h with
  | nil => exact ends_single closes
  | last item => exact ends_concat closes _
  | cons item others ih => exact (ih.cons _).behind _

theorem Further.ends {m : Mark} {P : Phrase Node} (known : EndsAll P) {vs : List Node}
    {ls : List Lexeme} (h : Further m P vs ls) {front : List Lexeme} (before : Ends front) :
    Ends (front ++ ls) := by
  induction h generalizing front with
  | nil =>
    rw [List.append_nil]
    exact before
  | @cons x ls xs more item others ih =>
    have next : Ends (front ++ .mark m :: ls) := ((known item).cons _).behind _
    have again := ih next
    rwa [List.append_assoc, List.cons_append] at again

theorem Joined.ends {m : Mark} {wrap : List Node → Node} {P : Phrase Node} (known : EndsAll P) :
    EndsAll (Joined m wrap P) := by
  rintro v ls (item | ⟨item, others⟩)
  · exact known item
  · exact others.ends known (known item)

structure Atoms.End (A : Atoms) : Prop where
  closed : EndsAll A.closed
  signature : EndsAll A.signature

section
variable {A : Atoms} (known : A.End)
include known

theorem IsOperand.ends : EndsAll (IsOperand A) := by
  rintro v ls (atom | atom)
  · cases atom with
    | base plain => exact known.closed plain
    | @array v ls item =>
      show Ends (ls ++ ([.mark .openSquare] ++ [.mark .closeSquare]))
      rw [← List.append_assoc]
      exact ends_concat rfl _
  · exact known.signature atom

theorem IsMember.ends : EndsAll (IsMember A) := by
  rintro v ls (plain | inner)
  · exact IsOperand.ends known plain
  · exact (IsOperand.ends known inner).cons _

theorem IsType.ends : EndsAll (IsType A) := Joined.ends (Joined.ends (IsMember.ends known))

end

theorem IsShapeBody.ends {type : Phrase Node} : EndsAll (IsShapeBody type) := by
  intro body ls h
  induction h with
  | close => exact ends_single rfl
  | @unsealed tail ls comma args =>
    rw [← List.append_assoc]
    exact (ends_concat rfl _).cons _
  | last item => exact ends_concat rfl _
  | cons item others ih => exact (ih.cons _).behind _

theorem IsFetch.ends {owner : String} : EndsAll (IsFetch owner) := by
  rintro v ls (text | text | -)
  · exact ends_single rfl
  · exact (ends_single rfl).cons _
  · exact ends_single rfl

theorem IsConst.ends (budget : Nat) : EndsAll (IsConst budget) := by
  intro v ls h
  cases budget with
  | zero => exact h.elim
  | succ budget =>
    cases h with
    | int | float | quoted | name => exact ends_single rfl
    | fetch fetched => exact ((IsFetch.ends fetched).cons _).cons _
    | array listed => exact (Listed.ends rfl listed).cons _

theorem atoms_end (budget : Nat) : (atoms budget).End := by
  induction budget with
  | zero => exact ⟨fun _ _ h => h.elim, fun _ _ h => h.elim⟩
  | succ budget known =>
    constructor
    · intro v ls h
      cases h with
      | group inner => exact (ends_concat rfl _).cons _
      | this => exact ends_single rfl
      | const value opens => exact IsConst.ends budget value
      | name text => exact ends_single rfl
      | fetch fetched => exact ((IsFetch.ends fetched).cons _).cons _
      | generic listed => exact ((Listed.ends rfl listed).cons _).cons _
      | arrayShape kind items => exact ((IsShapeBody.ends items).cons _).cons _
      | objectShape listed => exact ((Listed.ends rfl listed).cons _).cons _
    · rintro v ls ⟨callee, listed, returned⟩
      exact ((((IsMember.ends known returned).cons _).behind _).cons _).cons _

/-! ### Texts behind one another -/

theorem lexemes_longer {cs : List Char} {ls : List Lexeme}
    (h : lexemes (tokensFrom 0 cs) = ls ++ [.finish]) (tidy : isTidy ls = true) {b : Char}
    (ends : endsNumber b = true) (closed : ∀ l ∈ ls.getLast?, l.closedBy b = true) (more : List Char) :
    lexemes (tokensFrom 0 (cs ++ b :: more)) = ls ++ lexemes (tokensFrom 0 (b :: more)) := by
  obtain ⟨used, t, text, rfl, -⟩ := exists_used h
  have legible := legible_of_isTidy text tidy
  have closed : ∀ u ∈ used.getLast?, u.lexeme.closedBy b = true := by
    intro u member
    apply closed
    rw [lexemes, List.getLast?_map, Option.mem_def.mp member]
    rfl
  rw [tokensFrom_longer text legible ends closed, lexemes_append, lexemes_tokensFrom _ _ 0]

theorem lexemes_argument {cs : List Char} {n : Node} {ls : List Lexeme} {budget : Nat}
    (spelled : IsType (atoms budget) n ls) (h : lexemes (tokensFrom 0 cs) = ls ++ [.finish]) {b : Char}
    (separates : b = ',' ∨ b = '>') (more : List Char) :
    lexemes (tokensFrom 0 (cs ++ b :: more)) = ls ++ lexemes (tokensFrom 0 (b :: more)) := by
  have ends : endsNumber b = true := by rcases separates with rfl | rfl <;> decide
  obtain ⟨front, l, same, last⟩ := IsType.ends (atoms_end budget) spelled
  apply lexemes_longer h (IsType.shapedWithin spelled).tidy ends
  intro u member
  rw [same, List.getLast?_concat] at member
  cases member
  exact Lexeme.closedBy_of_comesLast last separates

theorem lexemes_mark {c : Char} {m : Mark} (solo : soloMark? c = some m) (visible : isBlank c = false)
    (cs : List Char) :
    lexemes (tokensFrom 0 (c :: cs)) = .mark m :: lexemes (tokensFrom 0 cs) := by
  have scanned : scan c cs = (.mark m, 0) := by simp only [scan, solo]
  rw [tokensFrom_head visible scanned, lexemes_cons, List.drop_zero, lexemes_tokensFrom _ _ 0]

/-! ### Generic types -/

section
variable {x name : String} (named : lexemes (tokens x) = [.name name, .finish])
include named

theorem lexemes_applied {args : String} {ls : List Lexeme} (text : lexemes (tokens args) = ls) :
    lexemes (tokens (x ++ "<" ++ args)) = .name name :: .mark .openAngle :: ls := by
  have front : lexemes (tokensFrom 0 x.toList) = [.name name] ++ [.finish] := named
  have whole : (x ++ "<" ++ args).toList = x.toList ++ '<' :: args.toList := by simp
  have closed : ∀ l ∈ [Lexeme.name name].getLast?, l.closedBy '<' = true := by
    intro l member
    cases member
    rfl
  rw [tokens, whole, lexemes_longer front rfl (by decide) closed, lexemes_mark rfl (by decide), ← text]
  rfl

theorem read_applied {args : String} {arg : Node} {more : List Node} {ls : List Lexeme}
    (listed : Listed .closeAngle (IsType (atoms maxDepth)) (arg :: more) ls)
    (text : lexemes (tokens args) = ls ++ [.finish]) :
    Limited (read (x ++ "<" ++ args)) (.ok (.generic (.name name) (arg :: more))) := by
  have spelled : IsType (atoms (maxDepth + 1)) (.generic (.name name) (arg :: more))
      (.name name :: .mark .openAngle :: ls) :=
    .single (.single (.operand (.closed (.base (.generic listed)))))
  exact read_of_spelled_deeper spelled (lexemes_applied named text)

end

section
variable {value : String} {n : Node} {ls : List Lexeme} {budget : Nat}
  (spelled : IsType (atoms budget) n ls) (text : lexemes (tokens value) = ls ++ [.finish])
include spelled text

theorem lexemes_value :
    lexemes (tokens (value ++ ">")) = (ls ++ [.mark .closeAngle]) ++ [.finish] := by
  have whole : (value ++ ">").toList = value.toList ++ '>' :: [] := by simp
  rw [tokens, whole, lexemes_argument spelled text (.inr rfl), lexemes_mark rfl (by decide),
    tokensFrom_blank rfl, List.append_assoc]
  rfl

/-- Behind a comma comes a blank, which is no part of the next argument. -/
theorem lexemes_entry {more : List Lexeme} {behind : String}
    (textBehind : lexemes (tokens behind) = more) :
    lexemes (tokens (value ++ ", " ++ behind)) = ls ++ .mark .comma :: more := by
  have whole : (value ++ ", " ++ behind).toList = value.toList ++ ',' :: ([' '] ++ behind.toList) := by
    simp
  have blank : ∀ c ∈ [' '], isBlank c = true := List.forall_mem_singleton.mpr rfl
  rw [tokens, whole, lexemes_argument spelled text (.inl rfl), lexemes_mark rfl (by decide),
    tokensFrom_append_blank blank, lexemes_tokensFrom _ _ 0, ← textBehind]
  rfl

end

section
variable {x name key value : String} {k n : Node}
  (named : lexemes (tokens x) = [.name name, .finish])
include named

theorem read_argument (given : read value = .ok n) :
    Limited (read (x ++ "<" ++ value ++ ">")) (.ok (.generic (.name name) [n])) := by
  obtain ⟨ls, spelled, text⟩ := exists_spelled_of_read given
  rw [String.append_assoc]
  exact read_applied named (.last spelled) (lexemes_value spelled text)

theorem read_arguments (givenKey : read key = .ok k) (given : read value = .ok n) :
    Limited (read (x ++ "<" ++ key ++ ", " ++ value ++ ">")) (.ok (.generic (.name name) [k, n])) := by
  obtain ⟨ls, spelledKey, textKey⟩ := exists_spelled_of_read givenKey
  obtain ⟨more, spelled, text⟩ := exists_spelled_of_read given
  have args := lexemes_entry spelledKey textKey (lexemes_value spelled text)
  have front : x ++ "<" ++ key ++ ", " ++ value ++ ">" = x ++ "<" ++ (key ++ ", " ++ (value ++ ">")) := by
    simp only [String.append_assoc]
  have listed : Listed .closeAngle (IsType (atoms maxDepth)) [k, n]
      (ls ++ .mark .comma :: (more ++ [.mark .closeAngle])) := .cons spelledKey (.last spelled)
  rw [front]
  apply read_applied named listed
  rw [args]
  simp

end

end TypeHints.Hint
