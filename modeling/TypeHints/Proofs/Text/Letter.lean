import Mathlib.Data.List.TakeWhile
import TypeHints.Proofs.Text.Runs
import TypeHints.Text.Letter

namespace TypeHints.Text

theorem inRanges_apart {as bs : List (Nat × Nat)} (apart : ∀ a ∈ as, ∀ b ∈ bs, a.2 < b.1 ∨ b.2 < a.1)
    {code : Nat} (inside : inRanges as code = true) : inRanges bs code = false := by
  obtain ⟨a, member, here⟩ := List.any_eq_true.mp inside
  refine List.any_eq_false.mpr fun b other there => ?_
  simp only [Bool.and_eq_true, decide_eq_true_eq] at here there
  rcases apart a member b other with before | behind <;> omega

def blanks : List (Nat × Nat) :=
  [(9, 13), (32, 32), (0x85, 0x85), (0xA0, 0xA0), (0x1680, 0x1680), (0x2000, 0x200A),
   (0x2028, 0x2029), (0x202F, 0x202F), (0x205F, 0x205F), (0x3000, 0x3000)]

theorem lettersAndNumbers_apart :
    ∀ a ∈ Table.lettersAndNumbers, ∀ b ∈ blanks, a.2 < b.1 ∨ b.2 < a.1 := by
  decide +kernel

theorem isAlpha_iff {c : Char} : c.isAlpha = true ↔
    ('A'.val ≤ c.val ∧ c.val ≤ 'Z'.val) ∨ ('a'.val ≤ c.val ∧ c.val ≤ 'z'.val) := by
  show (decide (_ ∧ _) || (decide _ && decide _)) = true ↔ _
  rw [Bool.or_eq_true, Bool.and_eq_true, decide_eq_true_iff, decide_eq_true_iff, decide_eq_true_iff]

theorem visible_of_isAlphanum {c : Char} (h : c.isAlphanum = true) : isBlank c = false := by
  have codes : 48 ≤ c.toNat ∧ c.toNat ≤ 122 := by
    rcases Bool.or_eq_true_iff.mp h with alpha | digit
    · have codes : 65 ≤ c.toNat ∧ c.toNat ≤ 90 ∨ 97 ≤ c.toNat ∧ c.toNat ≤ 122 := isAlpha_iff.mp alpha
      omega
    · simp only [Char.isDigit, Bool.and_eq_true, decide_eq_true_eq] at digit
      have codes : 48 ≤ c.toNat ∧ c.toNat ≤ 57 := digit
      omega
  simp [isBlank, inRanges]
  omega

theorem visible_of_isVariableChar {c : Char} (h : isVariableChar c = true) : isBlank c = false := by
  rcases Bool.or_eq_true_iff.mp h with letter | line
  · unfold isLetterOrNumber at letter
    split at letter
    · exact visible_of_isAlphanum letter
    · exact inRanges_apart lettersAndNumbers_apart letter
  · rw [eq_of_beq line]
    rfl

/-! ### Trimming -/

def EndsVisibly (cs : List Char) : Prop := ∀ d ∈ cs.getLast?, isBlank d = false

theorem endsVisibly_of_forall {cs : List Char} (h : ∀ d ∈ cs, isBlank d = false) : EndsVisibly cs :=
  fun _ last => h _ (List.mem_of_getLast? last)

theorem EndsVisibly.append {cs : List Char} (h : EndsVisibly cs) (some : cs ≠ []) (front : List Char) :
    EndsVisibly (front ++ cs) := by
  intro d last
  rw [List.getLast?_append, List.getLast?_eq_some_getLast some, Option.some_or,
    ← List.getLast?_eq_some_getLast some] at last
  exact h d last

theorem EndsVisibly.barred {cs : List Char} (h : EndsVisibly cs) : Barred isBlank cs.reverse := by
  intro d first
  rw [List.head?_reverse] at first
  exact h d first

theorem trimStart_append {gap : List Char} (blank : ∀ c ∈ gap, isBlank c = true) (cs : List Char) :
    trimStart (gap ++ cs) = trimStart cs :=
  List.dropWhile_append_of_pos blank

theorem trimEnd_blank {gap : List Char} (blank : ∀ c ∈ gap, isBlank c = true) : trimEnd gap = [] := by
  have none : gap.reverse.dropWhile isBlank = [] :=
    List.dropWhile_eq_nil_iff.mpr fun c member => blank c (List.mem_reverse.mp member)
  rw [trimEnd, none, List.reverse_nil]

theorem trimEnd_append {cs : List Char} (ends : EndsVisibly cs) (back : List Char) :
    trimEnd (cs ++ back) = cs ++ trimEnd back := by
  unfold trimEnd
  rw [List.reverse_append, List.dropWhile_append]
  split
  next none => rw [dropWhile_barred ends.barred, List.isEmpty_iff.mp none]; simp
  next => simp

theorem trimEnd_isPrefix (cs : List Char) : trimEnd cs <+: cs := by
  rw [← List.reverse_suffix, trimEnd, List.reverse_reverse]
  exact List.dropWhile_suffix isBlank

theorem trim_append_blank {back : List Char} (blank : ∀ c ∈ back, isBlank c = true) (cs : List Char) :
    trim (cs ++ back) = trim cs := by
  have shorter (cs : List Char) : trimEnd (cs ++ back) = trimEnd cs := by
    rw [trimEnd, List.reverse_append,
      List.dropWhile_append_of_pos fun c member => blank c (List.mem_reverse.mp member), ← trimEnd]
  have begins : trimStart (cs ++ back) =
      if (trimStart cs).isEmpty then trimStart back else trimStart cs ++ back := List.dropWhile_append
  rw [trim, trim, begins]
  split
  next none =>
    rw [List.isEmpty_iff.mp none, ← List.append_nil back, trimStart_append blank]
    rfl
  next => exact shorter _

theorem trim_of_endsVisibly {cs : List Char} (h : EndsVisibly cs) (some : cs ≠ []) :
    trim cs = cs.dropWhile isBlank := by
  obtain ⟨init, last, rfl⟩ := (List.eq_nil_or_concat cs).resolve_left some
  rw [List.concat_eq_append] at h ⊢
  have visible : isBlank last = false := h last (by simp)
  have core : (init ++ [last]).dropWhile isBlank = init.dropWhile isBlank ++ [last] := by
    rw [List.dropWhile_append]
    split
    next none => simp [List.isEmpty_iff.mp none, visible]
    next => rfl
  simp [trim, trimStart, trimEnd, core, visible]

theorem trim_between {gap core back : List Char} (front : ∀ c ∈ gap, isBlank c = true)
    (begins : Barred isBlank core) (ends : EndsVisibly core) (some : core ≠ []) :
    trim (gap ++ (core ++ back)) = core ++ trimEnd back := by
  obtain ⟨c, cs, rfl⟩ := List.exists_cons_of_ne_nil some
  have stays : trimStart (c :: cs ++ back) = c :: cs ++ back :=
    dropWhile_barred (by simpa using begins)
  rw [trim, trimStart_append front, stays, trimEnd_append ends]

end TypeHints.Text
