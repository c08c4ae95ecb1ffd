import TypeHints.Proofs.Hint.Nesting
import TypeHints.Proofs.Hint.Respelling

/-!
`Spells` says that lexemes, written without blanks, spell a node as far as the levels suffice that
they take. One lemma for each way to put spellings together.
-/
namespace TypeHints.Hint

/-- The lexemes close the brackets that they open. -/
def Balanced (ls : List Lexeme) : Prop :=
  ∀ level more, height level more ≤ height level (ls ++ more)

theorem balanced_nil : Balanced [] := fun _ _ => Nat.le_refl _

theorem Balanced.append {ls more : List Lexeme} (h : Balanced ls) (tail : Balanced more) :
    Balanced (ls ++ more) := by
  intro level rest
  rw [List.append_assoc]
  exact (tail level rest).trans (h level (more ++ rest))

theorem balanced_lexeme {l : Lexeme} (flat : ∀ level, l.levelAfter level = level) :
    Balanced [l] := by
  intro level rest
  rw [List.singleton_append, height, flat]
  exact Nat.le_max_right _ _

theorem balanced_mark {m : Mark} (flat : (m.opens || m.closes) = false) : Balanced [.mark m] := by
  rw [Bool.or_eq_false_iff] at flat
  refine balanced_lexeme ?_
  intro level
  simp [Lexeme.levelAfter, flat]

theorem Balanced.bracket {ls : List Lexeme} (h : Balanced ls) {left right : Mark}
    (opens : left.opens = true) (closes : right.closes = true) :
    Balanced (.mark left :: (ls ++ [.mark right])) := by
  intro level rest
  have inner := h (level + 1) (.mark right :: rest)
  rw [height_close closes] at inner
  rw [List.cons_append, List.append_assoc, height_open opens]
  exact inner

/-- The lexemes spell the node where what binds as tightly as `rank` may stand, within any budget
that is enough for the levels they take. -/
structure Spells (rank : Nat) (v : Node) (ls : List Lexeme) : Prop where
  spaced : Spaced ls
  balanced : Balanced ls
  deep : ∀ level more, level + 1 ≤ height level (ls ++ more)
  within : ∀ budget level more, height level (ls ++ more) ≤ level + budget →
    IsAt (atoms budget) rank v ls

theorem Spells.loosen {rank rank' : Nat} {v : Node} {ls : List Lexeme} (h : Spells rank v ls)
    (le : rank' ≤ rank) : Spells rank' v ls :=
  ⟨h.spaced, h.balanced, h.deep, fun budget level more low => (h.within budget level more low).loosen_le le⟩

/-! ### Words -/

theorem height_name (level : Nat) (word : String) (ls : List Lexeme) :
    height level (.name word :: ls) = max (level + 1) (height level ls) := rfl

theorem spells_name {word : String} (plain : (Lexeme.name word).isPlain = true) :
    Spells 4 (.name word) [.name word] := by
  have deep : ∀ level more, level + 1 ≤ height level ([.name word] ++ more) :=
    fun _ _ => Nat.le_max_left _ _
  refine ⟨.last rfl plain, balanced_lexeme fun _ => rfl, deep, ?_⟩
  intro budget level more low
  obtain ⟨budget, rfl⟩ : ∃ less, budget = less + 1 := ⟨budget - 1, by have := deep level more; omega⟩
  exact .base (.name word)

theorem spells_int (value : Int64) : Spells 4 (.const (.int value)) [.int value] := by
  have deep : ∀ level more, level + 2 ≤ height level ([.int value] ++ more) :=
    fun _ _ => Nat.le_max_left _ _
  refine ⟨.last rfl (isPlain_int value), balanced_lexeme fun _ => rfl,
    fun level more => Nat.le_of_succ_le (deep level more), ?_⟩
  intro budget level more low
  obtain ⟨budget, rfl⟩ : ∃ less, budget = less + 2 := ⟨budget - 2, by have := deep level more; omega⟩
  exact .base (.const (.int value) rfl)

/-! ### Parentheses and `?` -/

theorem Spells.group {v : Node} {ls : List Lexeme} (h : Spells 0 v ls) :
    Spells 4 v (.mark .openParen :: (ls ++ [.mark .closeParen])) := by
  have inside (level : Nat) (more : List Lexeme) :
      height level (.mark .openParen :: (ls ++ [.mark .closeParen]) ++ more) =
        height (level + 1) (ls ++ .mark .closeParen :: more) := by
    rw [List.cons_append, height_open rfl, List.append_assoc]
    rfl
  refine ⟨.mark rfl (h.spaced.append rfl .nil), h.balanced.bracket rfl rfl, ?_, ?_⟩
  · intro level more
    rw [inside]
    exact Nat.le_of_succ_le (h.deep (level + 1) _)
  · intro budget level more low
    rw [inside] at low
    obtain ⟨budget, rfl⟩ : ∃ less, budget = less + 1 :=
      ⟨budget - 1, by have := h.deep (level + 1) (.mark .closeParen :: more); omega⟩
    exact .base (.group (h.within budget (level + 1) (.mark .closeParen :: more) (by omega)))

theorem Spells.grouped {rank : Nat} {v : Node} {ls : List Lexeme} (h : Spells rank v ls)
    (needed : Bool) : Spells (if needed then 4 else rank) v (grouped needed ls) := by
  cases needed with
  | false => exact h
  | true => exact (h.loosen (Nat.zero_le rank)).group

theorem height_flat {m : Mark} (flat : (m.opens || m.closes) = false) (level : Nat)
    (ls : List Lexeme) : height level (.mark m :: ls) = height level ls := by
  rw [Bool.or_eq_false_iff] at flat
  simp [height, Lexeme.levels, Lexeme.levelAfter, flat]

theorem Spells.nullable {v : Node} {ls : List Lexeme} (h : Spells 3 v ls) :
    Spells 2 (.nullable v) (.mark .question :: ls) := by
  refine ⟨.mark rfl h.spaced, (balanced_mark rfl).append h.balanced, ?_, ?_⟩
  · intro level more
    rw [List.cons_append, height_flat rfl]
    exact h.deep level more
  · intro budget level more low
    rw [List.cons_append, height_flat rfl] at low
    exact .nullable (h.within budget level more low)

/-! ### Lists -/

section
variable {α : Type} {rank : Nat} {f : α → Node} {g : α → List Lexeme}

theorem spaced_joinedBy {m : Mark} (lone : m.isLone = true) {items : List (List Lexeme)}
    (h : ∀ ls ∈ items, Spaced ls) : Spaced (joinedBy m items) := by
  induction items with
  | nil => exact .nil
  | cons ls rest ih =>
    rw [List.forall_mem_cons] at h
    cases rest with
    | nil => simpa [joinedBy] using h.1
    | cons next rest =>
      have split : joinedBy m (ls :: next :: rest) = ls ++ .mark m :: joinedBy m (next :: rest) := by
        simp [joinedBy]
      rw [split]
      exact h.1.append lone (ih h.2)

theorem balanced_joinedBy {m : Mark} (flat : (m.opens || m.closes) = false)
    {items : List (List Lexeme)} (h : ∀ ls ∈ items, Balanced ls) : Balanced (joinedBy m items) := by
  induction items with
  | nil => exact balanced_nil
  | cons ls rest ih =>
    rw [List.forall_mem_cons] at h
    cases rest with
    | nil => simpa [joinedBy] using h.1
    | cons next rest =>
      have split : joinedBy m (ls :: next :: rest) = ls ++ ([.mark m] ++ joinedBy m (next :: rest)) := by
        simp [joinedBy]
      rw [split]
      exact h.1.append ((balanced_mark flat).append (ih h.2))

theorem further_of_spells {m : Mark} (flat : (m.opens || m.closes) = false) {items : List α}
    (each : ∀ x ∈ items, Spells rank (f x) (g x)) {budget level : Nat} {more : List Lexeme}
    (low : height level ((items.map g).flatMap (.mark m :: ·) ++ more) ≤ level + budget) :
    Further m (IsAt (atoms budget) rank) (items.map f) ((items.map g).flatMap (.mark m :: ·)) := by
  induction items with
  | nil => exact .nil
  | cons x rest ih =>
    rw [List.forall_mem_cons] at each
    rw [List.map_cons, List.flatMap_cons, List.cons_append, List.cons_append, height_flat flat,
      List.append_assoc] at low
    have balanced := each.1.balanced level ((rest.map g).flatMap (.mark m :: ·) ++ more)
    exact .cons (each.1.within budget level _ low) (ih each.2 (balanced.trans low))

theorem joined_of_spells {m : Mark} (flat : (m.opens || m.closes) = false)
    {wrap : List Node → Node} {items : List α} (several : 2 ≤ items.length)
    (each : ∀ x ∈ items, Spells rank (f x) (g x)) {budget level : Nat} {more : List Lexeme}
    (low : height level (joinedBy m (items.map g) ++ more) ≤ level + budget) :
    Joined m wrap (IsAt (atoms budget) rank) (wrap (items.map f)) (joinedBy m (items.map g)) := by
  match items, several with
  | x :: y :: rest, _ =>
    rw [List.forall_mem_cons] at each
    rw [List.map_cons, joinedBy, List.append_assoc] at low
    have balanced := each.1.balanced level (((y :: rest).map g).flatMap (.mark m :: ·) ++ more)
    exact .several (each.1.within budget level _ low)
      (further_of_spells flat each.2 (balanced.trans low))

theorem joined_deep {m : Mark} {items : List α} (some : items ≠ [])
    (each : ∀ x ∈ items, Spells rank (f x) (g x)) (level : Nat) (more : List Lexeme) :
    level + 1 ≤ height level (joinedBy m (items.map g) ++ more) := by
  cases items with
  | nil => exact absurd rfl some
  | cons x rest =>
    rw [List.map_cons, joinedBy, List.append_assoc]
    exact (each x (by simp)).deep level _

theorem spells_union {items : List α} (several : 2 ≤ items.length)
    (each : ∀ x ∈ items, Spells 1 (f x) (g x)) :
    Spells 0 (.union (items.map f)) (joinedBy .pipe (items.map g)) := by
  have some : items ≠ [] := by
    rintro rfl
    cases several
  refine ⟨?_, ?_, joined_deep some each, fun _ _ _ low => joined_of_spells rfl several each low⟩
  · exact spaced_joinedBy rfl (List.forall_mem_map.mpr fun x member => (each x member).spaced)
  · exact balanced_joinedBy rfl (List.forall_mem_map.mpr fun x member => (each x member).balanced)

theorem spells_intersection {items : List α} (several : 2 ≤ items.length)
    (each : ∀ x ∈ items, Spells 2 (f x) (g x)) :
    Spells 1 (.intersection (items.map f)) (joinedBy .amp (items.map g)) := by
  have some : items ≠ [] := by
    rintro rfl
    cases several
  refine ⟨?_, ?_, joined_deep some each, fun _ _ _ low => joined_of_spells rfl several each low⟩
  · exact spaced_joinedBy rfl (List.forall_mem_map.mpr fun x member => (each x member).spaced)
  · exact balanced_joinedBy rfl (List.forall_mem_map.mpr fun x member => (each x member).balanced)

theorem listed_of_spells {close : Mark} {items : List α} (some : items ≠ [])
    (each : ∀ x ∈ items, Spells 0 (f x) (g x)) {budget level : Nat} {more : List Lexeme}
    (low : height level (listed close (items.map g) ++ more) ≤ level + budget) :
    Listed close (IsType (atoms budget)) (items.map f) (listed close (items.map g)) := by
  induction items with
  | nil => exact absurd rfl some
  | cons x rest ih =>
    rw [List.forall_mem_cons] at each
    cases rest with
    | nil =>
      rw [List.map_cons, List.map_nil, listed, List.append_assoc] at low
      exact .last (each.1.within budget level _ low)
    | cons y rest =>
      have split : listed close ((x :: y :: rest).map g) =
          g x ++ .mark .comma :: listed close ((y :: rest).map g) := rfl
      rw [split, List.append_assoc, List.cons_append] at low
      have balanced := each.1.balanced level (.mark .comma :: (listed close ((y :: rest).map g) ++ more))
      rw [height_flat rfl] at balanced
      exact .cons (each.1.within budget level _ low) (ih (by simp) each.2 (balanced.trans low))

theorem spells_generic {base : String} (plain : (Lexeme.name base).isPlain = true) {items : List α}
    (some : items ≠ []) (each : ∀ x ∈ items, Spells 0 (f x) (g x)) :
    Spells 4 (.generic (.name base) (items.map f))
      (.name base :: .mark .openAngle :: listed .closeAngle (items.map g)) := by
  have spaced := spaced_joinedBy (m := .comma) rfl
    (List.forall_mem_map.mpr fun x member => (each x member).spaced)
  have balanced := balanced_joinedBy (m := .comma) rfl
    (List.forall_mem_map.mpr fun x member => (each x member).balanced)
  refine ⟨?_, ?_, fun _ _ => Nat.le_max_left _ _, ?_⟩
  · rw [listed_eq]
    exact .word rfl plain (.mark rfl (spaced.append rfl .nil))
  · rw [listed_eq]
    exact (balanced_lexeme (l := .name base) fun _ => rfl).append (balanced.bracket rfl rfl)
  · intro budget level more low
    rw [List.cons_append, height_name, List.cons_append, height_open rfl] at low
    obtain ⟨budget, rfl⟩ : ∃ less, budget = less + 1 := ⟨budget - 1, by omega⟩
    have inside : height (level + 1) (listed .closeAngle (items.map g) ++ more) ≤ level + 1 + budget := by
      omega
    have args : Listed .closeAngle (IsType (atoms budget)) (items.map f) (listed .closeAngle (items.map g)) :=
      listed_of_spells some each inside
    cases items with
    | nil => exact absurd rfl some
    | cons x rest => exact .base (.generic args)

end

/-! ### Texts -/

theorem isPlain_of_lexed {word : String} (h : lexemes (tokens word) = [.name word, .finish]) :
    (Lexeme.name word).isPlain = true := by
  obtain ⟨t, rest, split, same, -⟩ := lexemes_eq_cons.mp h
  have first : tokensFrom 0 word.toList = [t] ++ rest := split
  refine isPlain_of_tokens first (List.forall_mem_singleton.mpr ?_) (by simp [same]) rfl
  rw [same]
  rfl

theorem lexed_of_isPlain {word : String} (plain : (Lexeme.name word).isPlain = true) :
    lexemes (tokens word) = [.name word, .finish] := by
  have text := lexemes_textOf (.last rfl plain) 0
  rwa [textOf_name] at text

theorem Spells.lexemes_text {rank : Nat} {v : Node} {ls : List Lexeme} (h : Spells rank v ls)
    {text : String} (written : text.toList = textOf ls) : lexemes (tokens text) = ls ++ [.finish] := by
  rw [tokens, written]
  exact lexemes_textOf h.spaced 0

theorem Spells.read_text {rank : Nat} {v : Node} {ls : List Lexeme} (h : Spells rank v ls)
    {text : String} (written : text.toList = textOf ls) (low : nesting text ≤ maxDepth) :
    read text = .ok v := by
  have made := h.lexemes_text written
  rw [nesting, made] at low
  have spelled : IsAt (atoms maxDepth) rank v ls := h.within maxDepth 0 [.finish] (by omega)
  exact read_of_spelled (spelled.loosen_le (Nat.zero_le _)) made

theorem read_name {word : String} (plain : (Lexeme.name word).isPlain = true) :
    read word = .ok (.name word) := by
  have spells := spells_name plain
  have written : word.toList = textOf [.name word] := (textOf_name word).symm
  refine spells.read_text written ?_
  rw [nesting, spells.lexemes_text written]
  show height 0 [.name word, .finish] ≤ maxDepth
  rw [height_name]
  decide

end TypeHints.Hint
