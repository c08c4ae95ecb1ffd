import TypeHints.Proofs.Hint.Tokens
import TypeHints.Proofs.Text.Places

/-!
The tokens of a text cover all of it but blanks. Each of them is the text between its two offsets,
the next one begins where it ends or later, and the last one stands at the end.
-/
namespace TypeHints.Hint
open Text

variable {text : List Char} {start stop : Nat} {ts : List Token}

/-! ### The next token and what stands before it -/

/-- What the tokens of a text begin with. -/
inductive Begins (offset : Nat) (cs : List Char) : Prop
  | finish (blank : ∀ c ∈ cs, isBlank c = true)
      (tokens : tokensFrom offset cs = [⟨.finish, offset + byteSize cs, []⟩])
  | token {gap taken back : List Char} {c : Char} {l : Lexeme} (split : cs = gap ++ (c :: taken ++ back))
      (blank : ∀ d ∈ gap, isBlank d = true) (visible : isBlank c = false)
      (read : scan c (taken ++ back) = (l, taken.length))
      (tokens : tokensFrom offset cs = ⟨l, offset + byteSize gap, c :: taken⟩ ::
        tokensFrom (offset + byteSize (gap ++ c :: taken)) back)

theorem tokensFrom_begins (offset : Nat) (cs : List Char) : Begins offset cs := by
  have split : cs.takeWhile isBlank ++ cs.dropWhile isBlank = cs := List.takeWhile_append_dropWhile
  have blank := takeWhile_inside isBlank cs
  cases text : cs.dropWhile isBlank with
  | nil =>
    have whole := tokensFrom_blank text offset
    rw [text, List.append_nil] at split
    rw [split] at blank whole
    exact .finish blank whole
  | cons c rest =>
    have visible : isBlank c = false := by simpa [text] using List.head?_dropWhile_not isBlank cs
    rw [text] at split
    cases read : scan c rest with
    | mk l n =>
      have within := scan_le c rest
      rw [read] at within
      have taken : (rest.take n).length = n := List.length_take_of_le within
      have whole := tokensFrom_scan text read offset
      have again : c :: rest.take n ++ rest.drop n = c :: rest := by
        rw [List.cons_append, List.take_append_drop]
      have same : scan c (rest.take n ++ rest.drop n) = (l, (rest.take n).length) := by
        rw [List.take_append_drop, read, taken]
      rw [← again] at split
      rw [Nat.add_assoc, ← byteSize_append] at whole
      exact .token split.symm blank visible same whole

/-! ### Tiles -/

/-- Between the two places there is nothing but blanks. -/
def IsGap (text : List Char) (start stop : Nat) : Prop :=
  ∃ gap, slice? start stop text = some gap ∧ ∀ c ∈ gap, isBlank c = true

/-- From the offset on, the text is made up of the tokens with gaps before them and of the end. -/
inductive Tiles (text : List Char) : (start : Nat) → List Token → Prop
  | finish {start : Nat} (gap : IsGap text start (byteSize text)) :
      Tiles text start [⟨.finish, byteSize text, []⟩]
  | token {start : Nat} {t : Token} {ts : List Token} (gap : IsGap text start t.start)
      (inner : t.lexeme ≠ .finish) (visible : t.text ≠ [])
      (written : slice? t.start t.stop text = some t.text) (later : Tiles text t.stop ts) :
      Tiles text start (t :: ts)

theorem isGap_append (front : List Char) {gap : List Char} (blank : ∀ c ∈ gap, isBlank c = true)
    (back : List Char) : IsGap (front ++ (gap ++ back)) (byteSize front) (byteSize (front ++ gap)) :=
  ⟨gap, slice?_append front gap back, blank⟩

theorem tokensFrom_tile (front cs : List Char) :
    Tiles (front ++ cs) (byteSize front) (tokensFrom (byteSize front) cs) := by
  induction size : cs.length using Nat.strongRecOn generalizing front cs with
  | _ size ih =>
    subst size
    cases tokensFrom_begins (byteSize front) cs with
    | finish blank whole =>
      have gap := isGap_append front blank []
      rw [List.append_nil] at gap
      rw [whole, ← byteSize_append]
      exact .finish gap
    | @token gap taken back c l split blank visible read whole =>
      have shorter : back.length < cs.length := by
        rw [split]
        simp only [List.length_append, List.length_cons]
        omega
      have later := ih _ shorter (front ++ (gap ++ c :: taken)) back rfl
      have text : front ++ (gap ++ c :: taken) ++ back = front ++ cs := by
        rw [split]
        simp only [List.append_assoc]
      have stop : byteSize front + byteSize (gap ++ c :: taken) =
          byteSize (front ++ gap) + byteSize (c :: taken) := by
        simp only [byteSize_append]
        omega
      have written := slice?_append (front ++ gap) (c :: taken) back
      rw [text, byteSize_append, stop] at later
      rw [whole, stop, ← byteSize_append front gap]
      refine .token ?_ ?_ (List.cons_ne_nil c taken) ?_ later
      · rw [split]
        exact isGap_append front blank _
      · have inner := scan_ne_finish c (taken ++ back)
        rw [read] at inner
        exact inner
      · rw [byteSize_append _ (c :: taken), List.append_assoc, ← split] at written
        exact written

theorem tokens_tile (text : String) : Tiles text.toList 0 (tokens text) :=
  tokensFrom_tile [] text.toList

/-! ### Where tokens begin and end -/

/-- Every token begins and ends at an offset with the property. -/
def Placed (P : Nat → Prop) (ts : List Token) : Prop := ∀ t ∈ ts, P t.start ∧ P t.stop

theorem placed_cons {P : Nat → Prop} {t : Token} :
    Placed P (t :: ts) ↔ (P t.start ∧ P t.stop) ∧ Placed P ts := List.forall_mem_cons

theorem Tiles.placed (h : Tiles text start ts) : Placed (IsPlace text) ts := by
  induction h with
  | finish =>
    have stop := isPlace_byteSize text
    exact placed_cons.mpr ⟨⟨stop, stop⟩, by simp [Placed]⟩
  | token _ _ _ written _ ih =>
    obtain ⟨-, first, last⟩ := places_of_slice? written
    exact placed_cons.mpr ⟨⟨first, last⟩, ih⟩

theorem Tiles.size (h : Tiles text start ts) : ∀ t ∈ ts, t.stop ≤ byteSize text ∧
    (t.start < t.stop ∨ t.lexeme = .finish ∧ t.start = byteSize text ∧ t.stop = byteSize text) := by
  induction h with
  | finish => exact List.forall_mem_singleton.mpr ⟨Nat.le_refl _, .inr ⟨rfl, rfl, rfl⟩⟩
  | @token start t ts _ _ visible written _ ih =>
    refine List.forall_mem_cons.mpr ⟨⟨(places_of_slice? written).2.2.le, .inl ?_⟩, ih⟩
    have positive : byteSize t.text ≠ 0 := fun none => visible (byteSize_eq_zero none)
    unfold Token.stop
    omega

end TypeHints.Hint
