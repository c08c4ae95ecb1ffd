import TypeHints.Proofs.Hint.Soundness
import TypeHints.Proofs.Hint.Tiling

/-!
An offset that a reader reports, with an error or as the end of what it reads, is one at which a
token begins or ends. So every error shows at a place of the text.
-/
namespace TypeHints.Hint
open Text

variable {α β γ : Type} {P : Nat → Prop}

/-- A result as required, or an error at an offset with the property. -/
def Lands (P : Nat → Prop) (good : α → Prop) : Except ReadError α → Prop
  | .ok a => good a
  | .error e => P e.offset

theorem Lands.bind {x : Except ReadError α} {f : α → Except ReadError β} {good : α → Prop}
    {fine : β → Prop} (first : Lands P good x) (next : ∀ a, good a → Lands P fine (f a)) :
    Lands P fine (x >>= f) := by
  cases x with
  | error e => exact first
  | ok a => exact next a first

theorem Lands.map {x : Except ReadError α} {f : α → β} {good : α → Prop} {fine : β → Prop}
    (first : Lands P good x) (keep : ∀ a, good a → fine (f a)) : Lands P fine (x.map f) := by
  cases x with
  | error e => exact first
  | ok a => exact keep a first

def Read.IsPlaced {ts : List Token} (P : Nat → Prop) (r : Read ts α) : Prop := P r.last ∧ Placed P r.rest

def Trail.IsPlaced {ts : List Token} (P : Nat → Prop) (r : Trail ts α) : Prop := P r.last ∧ Placed P r.rest

/-- On placed tokens the reader fails at an offset with the property or stops at one, and leaves placed
tokens. -/
def Keeps (P : Nat → Prop) (read : Reader α) : Prop :=
  ∀ ⦃ts⦄, Placed P ts → Lands P (Read.IsPlaced P) (read ts)

/-! ### Single tokens -/

section
variable (zero : P 0) {ts : List Token} (placed : Placed P ts)
include zero placed

theorem offsetOf_placed : P (offsetOf ts) := by
  cases ts with
  | nil => exact zero
  | cons t rest => exact (placed_cons.mp placed).1.1

theorem unexpected_placed (wanted : Expectation) : P (unexpected wanted ts).offset := by
  cases ts with
  | nil => exact zero
  | cons t rest =>
    have first : P t.start := (placed_cons.mp placed).1.1
    unfold unexpected
    dsimp only
    split <;> exact first

end

theorem expect_keeps (zero : P 0) (m : Mark) : Keeps P (expect m) := by
  intro ts placed
  cases ts with
  | nil => exact zero
  | cons t rest =>
    obtain ⟨⟨-, stop⟩, others⟩ := placed_cons.mp placed
    unfold expect
    dsimp only
    split
    · exact ⟨stop, others⟩
    · exact unexpected_placed zero placed _

theorem Spelled.placed {Q : Phrase α} {v : α} {start last : Nat} {ts rest : List Token}
    (h : Spelled Q v start last ts rest) (before : P start) (placed : Placed P ts) :
    P last ∧ Placed P rest := by
  obtain ⟨used, rfl, rfl, -⟩ := h
  induction used generalizing start with
  | nil => exact ⟨before, placed⟩
  | cons t used ih =>
    obtain ⟨⟨-, stop⟩, others⟩ := placed_cons.mp placed
    exact ih stop others

theorem optionally_placed {ts : List Token} {last : Nat} (before : P last) (placed : Placed P ts)
    (m : Mark) : (optionally m last ts).IsPlaced P :=
  (optionally_spelled m last ts).placed before placed

/-! ### Lists -/

section
variable {item : Reader α} (keeps : Keeps P item)
include keeps

theorem many_lands (joins : List Token → Bool) {last : Nat} {ts : List Token} (before : P last)
    (placed : Placed P ts) : Lands P (Trail.IsPlaced P) (many joins item last ts) := by
  induction size : ts.length using Nat.strongRecOn generalizing last ts with
  | _ size ih =>
    subst size
    cases ts with
    | nil =>
      rw [many]
      exact ⟨before, placed⟩
    | cons t rest =>
      rw [many]
      split
      · refine (keeps (placed_cons.mp placed).2).bind ?_
        rintro first ⟨stop, left⟩
        have fewer : first.rest.length < (t :: rest).length := Nat.lt_succ_of_lt first.shorter
        exact (ih _ fewer stop left rfl).bind fun others fine => fine
      · exact ⟨before, placed⟩

theorem listing_keeps (zero : P 0) (close : Mark) : Keeps P (listing close item) := by
  intro ts placed
  induction size : ts.length using Nat.strongRecOn generalizing ts with
  | _ size ih =>
    subst size
    rw [listing]
    split
    · exact (expect_keeps zero close placed).map fun r fine => fine
    · refine (keeps placed).bind ?_
      rintro first ⟨stop, left⟩
      obtain ⟨value, last, rest, shorter⟩ := first
      cases rest with
      | nil => exact zero
      | cons t rest =>
        obtain ⟨⟨-, end'⟩, others⟩ := placed_cons.mp left
        dsimp only
        split
        · exact (ih rest.length (Nat.lt_of_succ_lt shorter) others rfl).bind fun others fine => fine
        split
        · exact ⟨end', others⟩
        · exact unexpected_placed zero left _

end

/-! ### Types over a given atom -/

theorem suffixes_placed {node : Node} {last : Nat} {ts : List Token} (before : P last)
    (placed : Placed P ts) : (suffixes node last ts).IsPlaced P := by
  have one : Spelled (Suffixed fun _ _ => True) node last last ts ts := .nil (.base trivial)
  exact (suffixes_spelled one).1.placed before placed

section
variable {atom : Reader Node} (keeps : Keeps P atom)
include keeps

theorem postfixed_keeps : Keeps P (postfixed atom) := by
  intro ts placed
  refine (keeps placed).bind ?_
  rintro r ⟨stop, left⟩
  exact suffixes_placed stop left

theorem nullable_keeps : Keeps P (nullable atom) := by
  intro ts placed
  cases ts with
  | nil => exact postfixed_keeps keeps placed
  | cons t rest =>
    unfold nullable
    dsimp only
    split
    · exact (postfixed_keeps keeps (placed_cons.mp placed).2).bind fun _ fine => fine
    · exact postfixed_keeps keeps placed

theorem joined_keeps {joins : List Token → Bool} {wrap : List Node → Node} :
    Keeps P (joined joins wrap atom) := by
  intro ts placed
  refine (keeps placed).bind ?_
  rintro first ⟨stop, left⟩
  exact (many_lands keeps joins stop left).bind fun _ fine => fine

theorem typeOver_keeps : Keeps P (typeOver atom) := joined_keeps (joined_keeps (nullable_keeps keeps))

end

/-! ### Shapes -/

theorem takeSlot_placed {ts : List Token} {slot : Slot} {rest : { rest : List Token // rest.length < ts.length }}
    (taken : takeSlot ts = some (slot, rest)) (placed : Placed P ts) : Placed P rest.1 := by
  obtain ⟨-, used, split, -⟩ := takeSlot_spelled taken 0
  intro t member
  exact placed t (split ▸ List.mem_append_right used member)

section
variable {type : Reader Node} (keeps : Keeps P type)
include keeps

theorem shapeItem_keeps : Keeps P (shapeItem type) := by
  intro ts placed
  unfold shapeItem
  split
  next slot rest fewer taken =>
    exact (keeps (takeSlot_placed taken placed)).bind fun _ fine => fine
  · exact (keeps placed).bind fun _ fine => fine

variable (zero : P 0)
include zero

theorem objectItem_keeps : Keeps P (objectItem type) := by
  intro ts placed
  refine (shapeItem_keeps keeps placed).bind fun item fine => ?_
  split
  · exact offsetOf_placed zero placed
  · exact fine

theorem shapeTail_lands {last : Nat} {ts : List Token} (before : P last) (placed : Placed P ts) :
    Lands P (Trail.IsPlaced P) (shapeTail type last ts) := by
  cases ts with
  | nil => exact ⟨before, placed⟩
  | cons t rest =>
    unfold shapeTail
    dsimp only
    split
    · refine (listing_keeps keeps zero .closeAngle (placed_cons.mp placed).2).bind fun args fine => ?_
      split
      · exact fine
      · exact fine
      · exact fine.1
    · exact ⟨before, placed⟩

theorem shapeBody_keeps : Keeps P (shapeBody type) := by
  intro ts placed
  induction size : ts.length using Nat.strongRecOn generalizing ts with
  | _ size ih =>
    subst size
    cases ts with
    | nil =>
      rw [shapeBody]
      exact (shapeItem_keeps keeps placed).bind fun _ fine => fine
    | cons t rest =>
      obtain ⟨⟨-, stop⟩, others⟩ := placed_cons.mp placed
      rw [shapeBody]
      split
      · exact ⟨stop, others⟩
      split
      · refine (shapeTail_lands keeps zero stop others).bind ?_
        rintro tail ⟨end', left⟩
        have comma := optionally_placed end' left .comma
        exact (expect_keeps zero .closeCurly comma.2).bind fun close fine => fine
      · refine (shapeItem_keeps keeps placed).bind ?_
        rintro item ⟨end', left⟩
        obtain ⟨value, last, rest', shorter⟩ := item
        cases rest' with
        | nil => exact zero
        | cons u more =>
          obtain ⟨⟨-, close⟩, behind⟩ := placed_cons.mp left
          dsimp only
          split
          · exact (ih more.length (Nat.lt_of_succ_lt shorter) behind rfl).bind fun _ fine => fine
          split
          · exact ⟨close, behind⟩
          · exact unexpected_placed zero left _

end

/-! ### Signatures and constants -/

theorem variableName_placed {ts : List Token} {last : Nat} (before : P last) (placed : Placed P ts) :
    (variableName last ts).IsPlaced P :=
  (variableName_spelled last ts).placed before placed

theorem param_keeps {type : Reader Node} (keeps : Keeps P type) : Keeps P (param type) := by
  intro ts placed
  refine (keeps placed).bind ?_
  rintro r ⟨stop, left⟩
  have byRef := optionally_placed stop left .amp
  have variadic := optionally_placed byRef.1 byRef.2 .ellipsis
  have name := variableName_placed variadic.1 variadic.2
  exact optionally_placed name.1 name.2 .equal

theorem constItem_keeps {const : Reader Const} (keeps : Keeps P const) : Keeps P (constItem const) := by
  intro ts placed
  refine (keeps placed).bind ?_
  rintro first ⟨stop, left⟩
  obtain ⟨value, last, rest, shorter⟩ := first
  cases rest with
  | nil => exact ⟨stop, left⟩
  | cons t rest =>
    dsimp only
    split
    · exact (keeps (placed_cons.mp left).2).bind fun _ fine => fine
    · exact ⟨stop, left⟩

section
variable (zero : P 0)
include zero

theorem signature_keeps {atom : Reader Node} (keeps : Keeps P atom) (callee : String) :
    Keeps P (signature atom callee) := by
  intro ts placed
  have params := listing_keeps (param_keeps (typeOver_keeps keeps)) zero .closeParen
  refine (params placed).bind ?_
  rintro params ⟨-, left⟩
  refine (expect_keeps zero .colon left).bind ?_
  rintro colon ⟨-, left⟩
  exact (nullable_keeps keeps left).bind fun _ fine => fine

theorem constFetch_keeps (owner : String) : Keeps P (constFetch owner) := by
  intro ts placed
  cases ts with
  | nil => exact zero
  | cons t rest =>
    obtain ⟨⟨-, stop⟩, others⟩ := placed_cons.mp placed
    unfold constFetch
    dsimp only
    split
    · exact optionally_placed stop others .star
    · exact ⟨stop, others⟩
    · exact unexpected_placed zero placed _

theorem constant_keeps (budget : Nat) : Keeps P (constant budget) := by
  induction budget with
  | zero => exact fun ts placed => offsetOf_placed zero placed
  | succ budget ih =>
    intro ts placed
    cases ts with
    | nil => exact zero
    | cons t rest =>
      obtain ⟨⟨-, stop⟩, others⟩ := placed_cons.mp placed
      obtain ⟨lexeme, start, text⟩ := t
      cases lexeme with
      | int | float | quoted => exact ⟨stop, others⟩
      | name text =>
        cases rest with
        | nil => exact ⟨stop, others⟩
        | cons u more =>
          cases colons : u.is .doubleColon with
          | true =>
            rw [constant_fetch budget more rfl colons]
            exact (constFetch_keeps zero text (placed_cons.mp others).2).map fun _ fine => fine
          | false =>
            rw [constant_name budget (u :: more) rfl colons]
            exact ⟨stop, others⟩
      | mark m =>
        cases m with
        | openSquare =>
          rw [constant_array budget rest rfl]
          exact (listing_keeps (constItem_keeps ih) zero .closeSquare others).bind fun _ fine => fine
        | _ => exact unexpected_placed zero placed _
      | _ => exact unexpected_placed zero placed _

/-! ### Atoms -/

theorem afterName_lands {atom : Reader Node} (keeps : Keeps P atom) (name : String) {last : Nat}
    {ts : List Token} (before : P last) (placed : Placed P ts) :
    Lands P (Trail.IsPlaced P) (afterName atom name last ts) := by
  have types := typeOver_keeps keeps
  cases ts with
  | nil => exact ⟨before, placed⟩
  | cons t rest =>
    have others := (placed_cons.mp placed).2
    unfold afterName
    dsimp only
    split
    · refine (listing_keeps types zero .closeAngle others).bind fun args fine => ?_
      split
      · exact fine.1
      · exact fine
    · split
      · exact (shapeBody_keeps types zero others).bind fun _ fine => fine
      split
      · exact (listing_keeps (objectItem_keeps types zero) zero .closeCurly others).bind fun _ fine => fine
      · exact ⟨before, placed⟩
    · split
      · exact (signature_keeps zero keeps _ others).bind fun _ fine => fine
      · exact ⟨before, placed⟩
    · exact (constFetch_keeps zero name others).bind fun _ fine => fine
    · exact ⟨before, placed⟩

theorem atom_keeps (budget : Nat) : Keeps P (atom budget) := by
  induction budget with
  | zero => exact fun ts placed => offsetOf_placed zero placed
  | succ budget ih =>
    intro ts placed
    cases ts with
    | nil => exact zero
    | cons t rest =>
      obtain ⟨⟨-, stop⟩, others⟩ := placed_cons.mp placed
      have const (opens : t.lexeme.opensConst = true) :
          Lands P (Read.IsPlaced P) (atom (budget + 1) (t :: rest)) := by
        rw [atom_const budget rest opens]
        exact (constant_keeps zero budget placed).map fun _ fine => fine
      obtain ⟨lexeme, start, text⟩ := t
      cases lexeme with
      | int | float | quoted => exact const rfl
      | this => exact ⟨stop, others⟩
      | name name =>
        rw [atom_name budget rest rfl]
        exact (afterName_lands zero ih name stop others).map fun _ fine => fine
      | mark m =>
        cases m with
        | openSquare => exact const rfl
        | openParen =>
          rw [atom_group budget rest rfl]
          refine (typeOver_keeps ih others).bind ?_
          rintro inner ⟨-, left⟩
          exact (expect_keeps zero .closeParen left).bind fun close fine => fine
        | _ => exact unexpected_placed zero placed _
      | _ => exact unexpected_placed zero placed _

end

/-! ### Texts -/

theorem tokens_placed (text : String) : Placed (IsPlace text.toList) (tokens text) :=
  (tokens_tile text).placed

theorem typeRead_lands (text : String) :
    Lands (IsPlace text.toList) (Read.IsPlaced (IsPlace text.toList)) (typeRead (tokens text)) :=
  typeOver_keeps (atom_keeps (isPlace_zero _) maxDepth) (tokens_placed text)

theorem readPrefix_lands (text : String) :
    Lands (IsPlace text.toList) (fun r => IsPlace text.toList r.2) (readPrefix text) :=
  (typeRead_lands text).map fun _ fine => fine.1

theorem read_lands (text : String) : Lands (IsPlace text.toList) (fun _ => True) (read text) := by
  refine (typeRead_lands text).bind ?_
  rintro r ⟨-, left⟩
  split
  · split
    · trivial
    · exact unexpected_placed (isPlace_zero _) left _
  · trivial

end TypeHints.Hint
