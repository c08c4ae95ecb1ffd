import TypeHints.Proofs.Hint.Delimitation

/-!
# How deep a type expression nests

The reader pays a level for every name, another one for a literal, and one for every parenthesis or
angle bracket around it. `nesting` counts the levels that a text takes, without reading it.
-/
namespace TypeHints.Hint

def Mark.opens : Mark → Bool
  | .openParen | .openAngle => true
  | _ => false

def Mark.closes : Mark → Bool
  | .closeParen | .closeAngle => true
  | _ => false

/-- The levels that a lexeme takes by itself. -/
def Lexeme.levels : Lexeme → Nat
  | .name _ | .this => 1
  | .int _ | .float _ | .quoted _ => 2
  | _ => 0

def Lexeme.levelAfter (level : Nat) : Lexeme → Nat
  | .mark m => if m.opens then level + 1 else if m.closes then level - 1 else level
  | _ => level

/-- The levels that lexemes take, if `level` brackets are open before them. -/
def height : (level : Nat) → List Lexeme → Nat
  | _, [] => 0
  | level, l :: ls =>
    max (if l.levels = 0 then 0 else level + l.levels) (height (l.levelAfter level) ls)

/-- The levels that a text takes. -/
def nesting (text : String) : Nat := height 0 (lexemes (tokens text))

theorem height_open {m : Mark} (opens : m.opens = true) (level : Nat) (ls : List Lexeme) :
    height level (.mark m :: ls) = height (level + 1) ls := by
  simp [height, Lexeme.levels, Lexeme.levelAfter, opens]

theorem height_close {m : Mark} (closes : m.closes = true) (level : Nat) (ls : List Lexeme) :
    height (level + 1) (.mark m :: ls) = height level ls := by
  have unopened : m.opens = false := by
    cases m <;> first | rfl | cases closes
  simp [height, Lexeme.levels, Lexeme.levelAfter, unopened, closes]

/-- The lexemes take at most `budget` levels and close the brackets that they open. -/
def Fits (budget : Nat) (ls : List Lexeme) : Prop :=
  ∀ level more, height level (ls ++ more) ≤ max (level + budget) (height level more)

theorem fits_nil (budget : Nat) : Fits budget [] := fun _ _ => Nat.le_max_right _ _

theorem Fits.append {budget : Nat} {ls more : List Lexeme} (h : Fits budget ls)
    (tail : Fits budget more) : Fits budget (ls ++ more) := by
  intro level rest
  rw [List.append_assoc]
  have first := h level (more ++ rest)
  have second := tail level rest
  omega

theorem Fits.mono {budget more : Nat} {ls : List Lexeme} (h : Fits budget ls)
    (le : budget ≤ more) : Fits more ls := by
  intro level rest
  have := h level rest
  omega

theorem fits_lexeme {budget : Nat} {l : Lexeme} (flat : ∀ level, l.levelAfter level = level)
    (low : l.levels ≤ budget) : Fits budget [l] := by
  intro level rest
  simp only [List.singleton_append, height, flat]
  split <;> omega

theorem fits_mark {m : Mark} (budget : Nat) (flat : (m.opens || m.closes) = false) :
    Fits budget [.mark m] := by
  rw [Bool.or_eq_false_iff] at flat
  refine fits_lexeme ?_ (Nat.zero_le _)
  intro level
  simp [Lexeme.levelAfter, flat]

theorem fits_times {m : Mark} (budget : Nat) (flat : (m.opens || m.closes) = false)
    (present : Bool) : Fits budget (m.times present) := by
  cases present with
  | false => exact fits_nil budget
  | true => exact fits_mark budget flat

theorem fits_name (budget : Nat) (text : String) : Fits (budget + 1) [.name text] :=
  fits_lexeme (fun _ => rfl) (Nat.le_add_left 1 budget)

theorem Fits.bracket {budget : Nat} {ls : List Lexeme} (h : Fits budget ls) {left right : Mark}
    (opens : left.opens = true) (closes : right.closes = true) :
    Fits (budget + 1) (.mark left :: (ls ++ [.mark right])) := by
  intro level rest
  have inner := h (level + 1) (.mark right :: rest)
  rw [height_close closes] at inner
  rw [List.cons_append, List.append_assoc, height_open opens]
  show height (level + 1) (ls ++ .mark right :: rest) ≤ _
  omega

/-! ### Phrases -/

def FitsAll {α : Type} (budget : Nat) (P : Phrase α) : Prop :=
  ∀ ⦃x ls⦄, P x ls → 1 ≤ budget ∧ Fits budget ls

section
variable {α : Type} {budget : Nat} {P : Phrase α}

theorem Listed.fits {close : Mark} (fits : ∀ ⦃x ls⦄, P x ls → Fits budget ls) {xs : List α}
    {ls : List Lexeme} (h : Listed close P xs ls) :
    ∃ inner, ls = inner ++ [.mark close] ∧ Fits budget inner := by
  induction h with
  | nil => exact ⟨[], rfl, fits_nil budget⟩
  | last item => exact ⟨_, rfl, fits item⟩
  | cons item others ih =>
    obtain ⟨inner, rfl, rest⟩ := ih
    refine ⟨_ ++ .mark .comma :: inner, by simp, (fits item).append ?_⟩
    exact (fits_mark budget rfl).append rest

theorem Further.fits {m : Mark} (flat : (m.opens || m.closes) = false)
    (fits : ∀ ⦃x ls⦄, P x ls → Fits budget ls) {xs : List α} {ls : List Lexeme}
    (h : Further m P xs ls) : Fits budget ls := by
  induction h with
  | nil => exact fits_nil budget
  | cons item others ih => exact (fits_mark budget flat).append ((fits item).append ih)

end

theorem Joined.fits {m : Mark} {wrap : List Node → Node} {budget : Nat} {P : Phrase Node}
    (flat : (m.opens || m.closes) = false) (fits : FitsAll budget P) :
    FitsAll budget (Joined m wrap P) := by
  rintro v ls (item | ⟨item, others⟩)
  · exact fits item
  · refine ⟨(fits item).1, (fits item).2.append ?_⟩
    exact others.fits flat fun _ _ other => (fits other).2

def Atoms.Fit (A : Atoms) (budget : Nat) : Prop :=
  FitsAll budget A.closed ∧ FitsAll budget A.signature

section
variable {A : Atoms} {budget : Nat} (known : A.Fit budget)
include known

theorem IsOperand.fits : FitsAll budget (IsOperand A) := by
  rintro v ls (atom | atom)
  · induction atom with
    | base plain => exact known.1 plain
    | array item ih =>
      refine ⟨ih.1, ih.2.append ?_⟩
      exact (fits_mark budget rfl).append (fits_mark budget rfl)
  · exact known.2 atom

theorem IsMember.fits : FitsAll budget (IsMember A) := by
  rintro v ls (plain | inner)
  · exact IsOperand.fits known plain
  · obtain ⟨paid, fits⟩ := IsOperand.fits known inner
    exact ⟨paid, (fits_mark budget rfl).append fits⟩

theorem IsType.fits : FitsAll budget (IsType A) :=
  Joined.fits rfl (Joined.fits rfl (IsMember.fits known))

end

/-! ### Shapes and signatures -/

section
variable {type : Phrase Node} {budget : Nat} (known : FitsAll budget type)
include known

/-- A literal key takes no more than a level of the type behind it. -/
theorem IsItem.fits {x : Slot × Node} {ls : List Lexeme} (h : IsItem type x ls) :
    Fits (budget + 1) ls := by
  cases h with
  | bare value => exact (known value).2.mono (Nat.le_succ budget)
  | @keyed l key v ls optional isKey value =>
    obtain ⟨paid, fits⟩ := known value
    have word : Fits (budget + 1) [l] := by
      cases l with
      | name | int | quoted =>
        refine fits_lexeme (fun _ => rfl) ?_
        simp only [Lexeme.levels]
        omega
      | _ => cases isKey
    refine word.append ((fits_times _ rfl optional).append ?_)
    exact (fits_mark _ rfl).append (fits.mono (Nat.le_succ budget))

theorem IsTail.fits {tail : Option (Option Node × Node)} {ls : List Lexeme}
    (h : IsTail type tail ls) : Fits (budget + 1) ls := by
  have args {vs : List Node} {ls : List Lexeme} (listed : Listed .closeAngle type vs ls) :
      Fits (budget + 1) (.mark .openAngle :: ls) := by
    obtain ⟨inner, rfl, fits⟩ := listed.fits fun _ _ value => (known value).2
    exact fits.bracket rfl rfl
  cases h with
  | none => exact fits_nil _
  | value listed => exact args listed
  | entry listed => exact args listed

theorem IsShapeBody.fits {body : ShapeBody} {ls : List Lexeme} (h : IsShapeBody type body ls) :
    Fits (budget + 1) ls := by
  induction h with
  | close => exact fits_mark _ rfl
  | unsealed comma tail =>
    refine (fits_mark _ rfl).append ((IsTail.fits known tail).append ?_)
    exact (fits_times _ rfl comma).append (fits_mark _ rfl)
  | last item => exact (IsItem.fits known item).append (fits_mark _ rfl)
  | cons item others ih => exact (IsItem.fits known item).append ((fits_mark _ rfl).append ih)

theorem IsParam.fits {x : Node × ParamMarks} {ls : List Lexeme} (h : IsParam type x ls) :
    Fits budget ls := by
  obtain ⟨value, -⟩ := h
  refine (known value).2.append ?_
  refine (fits_times _ rfl _).append ((fits_times _ rfl _).append (Fits.append ?_ (fits_times _ rfl _)))
  unfold sigiled
  split
  · exact fits_lexeme (fun _ => rfl) (Nat.zero_le _)
  · exact fits_nil _

end

theorem IsSignature.fits {A : Atoms} {budget : Nat} (known : A.Fit budget) :
    FitsAll (budget + 1) (IsSignature A) := by
  rintro v ls ⟨callee, listed, returned⟩
  obtain ⟨inner, rfl, params⟩ := listed.fits fun _ _ param => IsParam.fits (IsType.fits known) param
  have result := (IsMember.fits known returned).2
  refine ⟨Nat.le_add_left 1 budget, (fits_name budget _).append ?_⟩
  refine (params.bracket rfl rfl).append ?_
  exact (fits_mark _ rfl).append (result.mono (Nat.le_succ budget))

/-! ### Constants and atoms -/

theorem IsFetch.fits {owner : String} {v : Const} {ls : List Lexeme} (h : IsFetch owner v ls)
    (budget : Nat) : Fits (budget + 1) ls := by
  cases h with
  | name text => exact fits_name budget text
  | wild text => exact (fits_name budget text).append (fits_mark _ rfl)
  | star => exact fits_mark _ rfl

theorem IsConst.fits {budget : Nat} {v : Const} {ls : List Lexeme} (h : IsConst budget v ls) :
    Fits (budget + 1) ls := by
  induction budget generalizing v ls with
  | zero => exact h.elim
  | succ budget ih =>
    cases h with
    | int | float | quoted => exact fits_lexeme (fun _ => rfl) (Nat.le_add_left 2 budget)
    | name text => exact fits_name _ text
    | fetch fetched =>
      exact (fits_name _ _).append ((fits_mark _ rfl).append (fetched.fits _))
    | array listed =>
      have item : ∀ ⦃x ls⦄, IsConstItem (IsConst budget) x ls → Fits (budget + 1) ls := by
        rintro x ls (value | ⟨key, value⟩)
        · exact ih value
        · exact (ih key).append ((fits_mark _ rfl).append (ih value))
      obtain ⟨inner, rfl, fits⟩ := listed.fits item
      refine (fits_mark _ rfl).append (Fits.append ?_ (fits_mark _ rfl))
      exact fits.mono (Nat.le_succ _)

theorem atoms_fit (budget : Nat) : (atoms budget).Fit budget := by
  induction budget with
  | zero => exact ⟨fun _ _ none => none.elim, fun _ _ none => none.elim⟩
  | succ budget ih =>
    refine ⟨?_, IsSignature.fits ih⟩
    have type := IsType.fits ih
    intro v ls h
    refine ⟨Nat.le_add_left 1 budget, ?_⟩
    cases h with
    | group inner => exact (type inner).2.bracket rfl rfl
    | this => exact fits_lexeme (fun _ => rfl) (Nat.le_add_left 1 budget)
    | const value _ => exact value.fits
    | name text => exact fits_name budget text
    | fetch fetched =>
      exact (fits_name _ _).append ((fits_mark _ rfl).append (fetched.fits _))
    | generic listed =>
      obtain ⟨inner, rfl, fits⟩ := listed.fits fun _ _ value => (type value).2
      exact (fits_name _ _).append (fits.bracket rfl rfl)
    | arrayShape kind items =>
      exact (fits_name _ _).append ((fits_mark _ rfl).append (IsShapeBody.fits type items))
    | objectShape listed =>
      obtain ⟨inner, rfl, fits⟩ := listed.fits fun _ _ item => by
        cases item with
        | keyed item _ => exact IsItem.fits type item
      exact (fits_name _ _).append ((fits_mark _ rfl).append (fits.append (fits_mark _ rfl)))

/-! ### Texts -/

theorem nesting_le_of_read {text : String} {n : Node} (h : read text = .ok n) :
    nesting text ≤ maxDepth := by
  obtain ⟨ls, spelled, text⟩ := exists_spelled_of_read h
  have fits := (IsType.fits (atoms_fit maxDepth) spelled).2 0 [.finish]
  have last : height 0 [Lexeme.finish] = 0 := rfl
  rw [nesting, text]
  omega

end TypeHints.Hint
