import TypeHints.Proofs.Hint.Delimitation

namespace TypeHints.Hint

variable {α β : Type}

/-- The outcome is the one in full, or that the text nests too deep. -/
def Limited (outcome full : Except ReadError α) : Prop :=
  outcome = full ∨ ∃ offset, outcome = .error ⟨.tooDeep, offset⟩

theorem Limited.refl (outcome : Except ReadError α) : Limited outcome outcome := .inl rfl

theorem Limited.bind {x full : Except ReadError α} {f g : α → Except ReadError β}
    (first : Limited x full) (next : ∀ a, Limited (f a) (g a)) : Limited (x >>= f) (full >>= g) := by
  rcases first with rfl | ⟨offset, rfl⟩
  · cases x with
    | error e => exact .refl _
    | ok a => exact next a
  · exact .inr ⟨offset, rfl⟩

theorem Limited.map {x full : Except ReadError α} (first : Limited x full) (f : α → β) :
    Limited (x.map f) (full.map f) := by
  rcases first with rfl | ⟨offset, rfl⟩
  · exact .refl _
  · exact .inr ⟨offset, rfl⟩

def Limits (read full : Reader α) : Prop := ∀ ts, Limited (read ts) (full ts)

/-! ### Lists -/

section
variable {item full : Reader α} (limits : Limits item full)
include limits

theorem many_limited (joins : List Token → Bool) (last : Nat) (ts : List Token) :
    Limited (many joins item last ts) (many joins full last ts) := by
  induction size : ts.length using Nat.strongRecOn generalizing last ts with
  | _ size ih =>
    subst size
    cases ts with
    | nil =>
      rw [many, many]
      exact .refl _
    | cons t rest =>
      rw [many, many]
      split
      · refine (limits rest).bind fun first => ?_
        have fewer : first.rest.length < (t :: rest).length := Nat.lt_succ_of_lt first.shorter
        exact (ih _ fewer _ _ rfl).bind fun others => .refl _
      · exact .refl _

theorem listing_limits (close : Mark) : Limits (listing close item) (listing close full) := by
  intro ts
  induction size : ts.length using Nat.strongRecOn generalizing ts with
  | _ size ih =>
    subst size
    rw [listing, listing]
    split
    · exact .refl _
    · refine (limits ts).bind fun first => ?_
      obtain ⟨value, last, rest, shorter⟩ := first
      cases rest with
      | nil => exact .refl _
      | cons t rest =>
        dsimp only
        split
        · exact (ih rest.length (Nat.lt_of_succ_lt shorter) rest rfl).bind fun others => .refl _
        · exact .refl _

end

/-! ### Types over a given atom -/

section
variable {atom full : Reader Node} (limits : Limits atom full)
include limits

theorem postfixed_limits : Limits (postfixed atom) (postfixed full) :=
  fun ts => (limits ts).bind fun _ => .refl _

theorem nullable_limits : Limits (nullable atom) (nullable full) := by
  intro ts
  cases ts with
  | nil => exact postfixed_limits limits []
  | cons t rest =>
    unfold nullable
    dsimp only
    split
    · exact (postfixed_limits limits rest).bind fun _ => .refl _
    · exact postfixed_limits limits (t :: rest)

theorem joined_limits {joins : List Token → Bool} {wrap : List Node → Node} :
    Limits (joined joins wrap atom) (joined joins wrap full) := by
  intro ts
  refine (limits ts).bind fun first => ?_
  exact (many_limited limits joins first.last first.rest).bind fun _ => .refl _

theorem typeOver_limits : Limits (typeOver atom) (typeOver full) :=
  joined_limits (joined_limits (nullable_limits limits))

end

/-! ### Shapes -/

section
variable {type full : Reader Node} (limits : Limits type full)
include limits

theorem shapeItem_limits : Limits (shapeItem type) (shapeItem full) := by
  intro ts
  unfold shapeItem
  split
  · exact (limits _).bind fun _ => .refl _
  · exact (limits ts).bind fun _ => .refl _

theorem objectItem_limits : Limits (objectItem type) (objectItem full) :=
  fun ts => (shapeItem_limits limits ts).bind fun _ => .refl _

theorem shapeTail_limited (last : Nat) (ts : List Token) :
    Limited (shapeTail type last ts) (shapeTail full last ts) := by
  cases ts with
  | nil => exact .refl _
  | cons t rest =>
    unfold shapeTail
    dsimp only
    split
    · exact (listing_limits limits .closeAngle rest).bind fun _ => .refl _
    · exact .refl _

theorem shapeBody_limits : Limits (shapeBody type) (shapeBody full) := by
  intro ts
  induction size : ts.length using Nat.strongRecOn generalizing ts with
  | _ size ih =>
    subst size
    cases ts with
    | nil =>
      rw [shapeBody, shapeBody]
      exact (shapeItem_limits limits []).bind fun _ => .refl _
    | cons t rest =>
      rw [shapeBody, shapeBody]
      split
      · exact .refl _
      split
      · exact (shapeTail_limited limits t.stop rest).bind fun _ => .refl _
      · refine (shapeItem_limits limits (t :: rest)).bind fun item => ?_
        obtain ⟨value, last, left, shorter⟩ := item
        cases left with
        | nil => exact .refl _
        | cons u more =>
          dsimp only
          split
          · exact (ih more.length (Nat.lt_of_succ_lt shorter) more rfl).bind fun _ => .refl _
          · exact .refl _

end

/-! ### Signatures and constants -/

theorem param_limits {type full : Reader Node} (limits : Limits type full) :
    Limits (param type) (param full) :=
  fun ts => (limits ts).bind fun _ => .refl _

theorem signature_limits {atom full : Reader Node} (limits : Limits atom full) (callee : String) :
    Limits (signature atom callee) (signature full callee) := by
  intro ts
  refine (listing_limits (param_limits (typeOver_limits limits)) .closeParen ts).bind fun params => ?_
  refine (Limited.refl _).bind fun colon => ?_
  exact (nullable_limits limits colon.rest).bind fun _ => .refl _

theorem constItem_limits {const full : Reader Const} (limits : Limits const full) :
    Limits (constItem const) (constItem full) := by
  intro ts
  refine (limits ts).bind fun first => ?_
  obtain ⟨value, last, rest, shorter⟩ := first
  cases rest with
  | nil => exact .refl _
  | cons t rest =>
    dsimp only
    split
    · exact (limits rest).bind fun _ => .refl _
    · exact .refl _

theorem constant_limits (budget : Nat) : Limits (constant budget) (constant (budget + 1)) := by
  induction budget with
  | zero => exact fun ts => .inr ⟨_, rfl⟩
  | succ budget ih =>
    intro ts
    cases ts with
    | nil => exact .refl _
    | cons t rest =>
      obtain ⟨lexeme, start, text⟩ := t
      cases lexeme with
      | mark m =>
        cases m with
        | openSquare =>
          rw [constant_array budget rest rfl, constant_array (budget + 1) rest rfl]
          exact (listing_limits (constItem_limits ih) .closeSquare rest).bind fun _ => .refl _
        | _ => exact .refl _
      | _ => exact .refl _

/-! ### Atoms -/

theorem afterName_limited {atom full : Reader Node} (limits : Limits atom full) (name : String)
    (last : Nat) (ts : List Token) :
    Limited (afterName atom name last ts) (afterName full name last ts) := by
  have types := typeOver_limits limits
  cases ts with
  | nil => exact .refl _
  | cons t rest =>
    cases same : t.lexeme with
    | mark m =>
      cases m with
      | openAngle =>
        simp only [afterName, same]
        exact (listing_limits types .closeAngle rest).bind fun _ => .refl _
      | openCurly =>
        simp only [afterName, same]
        split
        · exact (shapeBody_limits types rest).bind fun _ => .refl _
        · split
          · exact (listing_limits (objectItem_limits types) .closeCurly rest).bind fun _ => .refl _
          · exact .refl _
      | openParen =>
        simp only [afterName, same]
        split
        · exact (signature_limits limits _ rest).bind fun _ => .refl _
        · exact .refl _
      | _ => exact .inl (by simp only [afterName, same])
    | _ => exact .inl (by simp only [afterName, same])

theorem atom_limits (budget : Nat) : Limits (atom budget) (atom (budget + 1)) := by
  induction budget with
  | zero => exact fun ts => .inr ⟨_, rfl⟩
  | succ budget ih =>
    intro ts
    cases ts with
    | nil => exact .refl _
    | cons t rest =>
      have const (opens : t.lexeme.opensConst = true) :
          Limited (atom (budget + 1) (t :: rest)) (atom (budget + 2) (t :: rest)) := by
        rw [atom_const budget rest opens, atom_const (budget + 1) rest opens]
        exact (constant_limits budget (t :: rest)).map _
      obtain ⟨lexeme, start, text⟩ := t
      cases lexeme with
      | mark m =>
        cases m with
        | openParen =>
          rw [atom_group budget rest rfl, atom_group (budget + 1) rest rfl]
          exact (typeOver_limits ih rest).bind fun inner => .refl _
        | openSquare => exact const rfl
        | _ => exact .refl _
      | int | float | quoted => exact const rfl
      | name name =>
        rw [atom_name budget rest rfl, atom_name (budget + 1) rest rfl]
        exact (afterName_limited ih name _ rest).map _
      | _ => exact .refl _

/-! ### Texts -/

theorem read_of_spelled_deeper {s : String} {n : Node} {ls : List Lexeme}
    (spelled : IsType (atoms (maxDepth + 1)) n ls) (h : lexemes (tokens s) = ls ++ [.finish]) :
    Limited (read s) (.ok n) := by
  obtain ⟨used, t, text, same, finish⟩ := exists_used h
  have stop : continuesType [t] = false := continuesType_of_endsType (by rw [finish]; rfl) []
  have reads := typeOver_complete (atom_complete (maxDepth + 1)) spelled same stop
  obtain ⟨last, shorter, full⟩ := reads.ok
  have limited := typeOver_limits (atom_limits maxDepth) (used ++ [t])
  rw [full] at limited
  rw [read, text]
  rcases limited with ok | ⟨offset, deep⟩
  · left
    simp only [typeRead, ok, bind, Except.bind, finish, if_true]
    rfl
  · right
    refine ⟨offset, ?_⟩
    simp only [typeRead, deep]
    rfl

end TypeHints.Hint
