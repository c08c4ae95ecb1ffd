import TypeHints.Proofs.Text.Places
import TypeHints.Proofs.Text.Runs

/-!
# A cursor over a text

A cursor knows no more of a text than the byte offset where it stands, and cuts the text at offsets
to look at it. A cut within a character is the end of its work. `Takes` says what the cursor moves
over and what it gives, and each way to move has one lemma that says so.
-/
namespace TypeHints.Text

/-- Work at an offset of a text. There is no result when a cut fails. -/
abbrev Cursor (α : Type) := ReaderT (List Char) (StateT Nat Option) α

namespace Cursor

/-! ### Looking and moving -/

def position : Cursor Nat := get

def cut (start stop : Nat) : Cursor (List Char) :=
  fun text here => (slice? start stop text).map (·, here)

def ahead : Cursor (List Char) :=
  fun text here => (slice? here (byteSize text) text).map (·, here)

def peekAt (n : Nat) : Cursor (Option Char) := do return (← ahead)[n]?

def peek : Cursor (Option Char) := peekAt 0

/-- Moves by bytes, without a look at the characters. -/
def advance (bytes : Nat) : Cursor Unit := modify (· + bytes)

def bump : Cursor (Option Char) := do
  match ← peek with
  | some c =>
    advance c.utf8Size
    return some c
  | none => return none

def skip : Cursor Unit := do
  let _ ← bump
  return ()

def skips : Nat → Cursor Unit
  | 0 => return ()
  | n + 1 => do
    skip
    skips n

def accept (c : Char) : Cursor Unit := do
  if (← peek) = some c then skip else return ()

inductive Turn (σ α : Type) where
  | again (state : σ)
  | done (result : α)

/-- At most so many turns. There is no result when more are needed. -/
def turns {σ α : Type} (body : σ → Cursor (Turn σ α)) : Nat → σ → Cursor α
  | 0, _ => fun _ _ => none
  | n + 1, state => do
    match ← body state with
    | .again state => turns body n state
    | .done result => return result

def loop {σ α : Type} (body : σ → Cursor (Turn σ α)) (state : σ) : Cursor α :=
  fun text here => turns body (byteSize text + 1) state text here

def eatTurn (p : Char → Bool) (_ : Unit) : Cursor (Turn Unit Unit) := do
  match ← peek with
  | some c =>
    if p c then
      skip
      return .again ()
    else return .done ()
  | none => return .done ()

def eatWhile (p : Char → Bool) : Cursor Unit := loop (eatTurn p) ()

def taken (work : Cursor Unit) : Cursor (List Char) := do
  let start ← position
  work
  cut start (← position)

/-! ### What the cursor takes -/

section
variable {α β : Type} {front used more back : List Char} {a : α} {b : β}

/-- Behind `front` the work takes `used` off the text, and gives `a`. -/
def Takes (work : Cursor α) (front used back : List Char) (a : α) : Prop :=
  work (front ++ (used ++ back)) (byteSize front) = some (a, byteSize (front ++ used))

theorem takes_pure (a : α) : Takes (pure a) front [] back a := by
  unfold Takes
  rw [List.append_nil]
  rfl

theorem Takes.bind {work : Cursor α} {further : α → Cursor β}
    (first : Takes work front used (more ++ back) a)
    (others : Takes (further a) (front ++ used) more back b) :
    Takes (work >>= further) front (used ++ more) back b := by
  have text : front ++ used ++ (more ++ back) = front ++ (used ++ more ++ back) := by
    simp only [List.append_assoc]
  have early : front ++ (used ++ (more ++ back)) = front ++ (used ++ more ++ back) := by
    simp only [List.append_assoc]
  unfold Takes at *
  rw [early] at first
  rw [text, List.append_assoc front] at others
  show (work _ _).bind _ = _
  rw [first]
  exact others

theorem Takes.seen {look : Cursor α} {further : α → Cursor β} (sight : Takes look front [] (used ++ back) a)
    (others : Takes (further a) front used back b) : Takes (look >>= further) front used back b := by
  rw [← List.append_nil front] at others
  exact sight.bind others

theorem Takes.look {work : Cursor α} {further : α → Cursor β} (first : Takes work front used back a)
    (sight : Takes (further a) (front ++ used) [] back b) : Takes (work >>= further) front used back b := by
  rw [← List.append_nil used]
  rw [← List.nil_append back] at first
  exact first.bind sight

theorem position_takes : Takes position front [] back (byteSize front) := by
  unfold Takes
  rw [List.append_nil]
  rfl

theorem cut_takes : Takes (cut (byteSize front) (byteSize (front ++ used))) (front ++ used) [] back used := by
  unfold Takes cut
  rw [List.append_nil, List.nil_append, List.append_assoc, slice?_append]
  rfl

theorem ahead_takes : Takes ahead front [] back back := by
  have rest := slice?_append front back []
  rw [List.append_nil] at rest
  unfold Takes ahead
  rw [List.append_nil, List.nil_append, rest]
  rfl

theorem peekAt_takes (n : Nat) : Takes (peekAt n) front [] back back[n]? :=
  ahead_takes.seen (takes_pure _)

theorem peek_takes : Takes peek front [] back back.head? := by
  rw [List.head?_eq_getElem?]
  exact peekAt_takes 0

theorem advance_takes (used : List Char) : Takes (advance (byteSize used)) front used back () := by
  unfold Takes
  rw [byteSize_append]
  rfl

theorem bump_takes (c : Char) : Takes bump front [c] back (some c) := by
  refine peek_takes.seen ?_
  exact (advance_takes [c]).bind (takes_pure (some c))

theorem bump_end : Takes bump front [] [] none := peek_takes.seen (takes_pure _)

theorem skip_takes (c : Char) : Takes skip front [c] back () := (bump_takes c).bind (takes_pure ())

theorem skips_takes (used : List Char) : Takes (skips used.length) front used back () := by
  induction used generalizing front with
  | nil => exact takes_pure ()
  | cons c used ih => exact (skip_takes c).bind ih

section
variable {σ : Type} {body : σ → Cursor (Turn σ α)} {state later : σ} {n : Nat}

theorem turns_again (first : Takes (body state) front used (more ++ back) (.again later))
    (others : Takes (turns body n later) (front ++ used) more back a) :
    Takes (turns body (n + 1) state) front (used ++ more) back a := first.bind others

theorem turns_done (last : Takes (body state) front used back (.done a)) :
    Takes (turns body (n + 1) state) front used back a := last.look (takes_pure a)

theorem loop_takes (h : ∀ n, used.length < n → Takes (turns body n state) front used back a) :
    Takes (loop body state) front used back a := by
  refine h _ (Nat.lt_succ_of_le ?_)
  have size := length_le_byteSize used
  simp only [byteSize_append]
  omega

end

theorem eatTurns_take {p : Char → Bool} (inside : ∀ c ∈ used, p c = true) (stop : Barred p back) {n : Nat}
    (enough : used.length < n) : Takes (turns (eatTurn p) n ()) front used back () := by
  induction used generalizing front n with
  | nil =>
    -- One turn is left, and it sees the character that stops the loop.
    obtain ⟨n, rfl⟩ := Nat.exists_eq_add_one.mpr enough
    refine turns_done (peek_takes.seen ?_)
    cases back with
    | nil => exact takes_pure _
    | cons c rest =>
      rw [barred_cons] at stop
      simp only [List.nil_append, List.head?_cons, stop]
      exact takes_pure _
  | cons c used ih =>
    obtain ⟨first, others⟩ := List.forall_mem_cons.mp inside
    obtain ⟨n, rfl⟩ := Nat.exists_eq_add_one.mpr (Nat.zero_lt_of_lt enough)
    have turn : Takes (eatTurn p ()) front [c] (used ++ back) (.again ()) := by
      refine peek_takes.seen ?_
      simp only [List.cons_append, List.head?_cons, first, if_true]
      exact (skip_takes c).look (takes_pure _)
    exact turns_again turn (ih others (Nat.lt_of_succ_lt_succ enough))

theorem eatWhile_takes {p : Char → Bool} (inside : ∀ c ∈ used, p c = true) (stop : Barred p back) :
    Takes (eatWhile p) front used back () :=
  loop_takes fun _ enough => eatTurns_take inside stop enough

theorem taken_takes {work : Cursor Unit} (h : Takes work front used back ()) :
    Takes (taken work) front used back used := by
  refine position_takes.seen ?_
  exact h.look (position_takes.seen cut_takes)

theorem accept_takes (c : Char) : Takes (accept c) front [c] back () := by
  refine peek_takes.seen ?_
  simp only [List.cons_append, List.head?_cons, if_true]
  exact skip_takes c

theorem accept_other {c : Char} (other : back.head? ≠ some c) : Takes (accept c) front [] back () := by
  refine peek_takes.seen ?_
  simp only [List.nil_append, other, if_false]
  exact takes_pure ()

end

end Cursor

end TypeHints.Text
