import Mathlib.Data.List.TakeDrop
import Mathlib.Data.List.TakeWhile
import TypeHints.ClassName

/-!
A name without root marker is its last segment within its namespace, and no two namespaces put one
segment under the same name. A namespace can be dropped from a name, with all that looks like it.
-/
namespace TypeHints.ClassName

variable {name word : String}

/-! ### Single segments -/

def IsSegment (word : String) : Prop := ∀ c ∈ word.toList, c ≠ '\\'

theorem short_isSegment (name : String) : IsSegment (short name) := by
  intro c member
  have taken : c ∈ name.toList.reverse.takeWhile (· ≠ '\\') := by
    simpa [short] using member
  simpa using List.mem_takeWhile_imp taken

theorem IsSegment.unrooted (segment : IsSegment word) : word.toList.head? ≠ some '\\' := by
  intro rooted
  exact segment '\\' (List.mem_of_head? rooted) rfl

theorem IsSegment.splitFirst (segment : IsSegment word) : splitFirst word = (word, none) := by
  have taken : word.toList.takeWhile (· ≠ '\\') = word.toList :=
    List.takeWhile_eq_self_iff.mpr (by simpa [IsSegment] using segment)
  have dropped : word.toList.dropWhile (· ≠ '\\') = [] :=
    List.dropWhile_eq_nil_iff.mpr (by simpa [IsSegment] using segment)
  unfold ClassName.splitFirst
  rw [List.span_eq_takeWhile_dropWhile, taken, dropped]
  exact congrArg (·, none) String.ofList_toList

/-! ### Names in a namespace -/

/-- The name of a segment in a namespace; the empty one is the global namespace. -/
def within (space word : String) : String := if space = "" then word else space ++ "\\" ++ word

theorem toList_within {space : String} (some : space ≠ "") (word : String) :
    (within space word).toList = space.toList ++ '\\' :: word.toList := by
  simp [within, some]

theorem segment_cases (name : String) : (space name = "" ∧ short name = name) ∨
    name.toList = (space name).toList ++ '\\' :: (short name).toList := by
  have whole := List.takeWhile_append_dropWhile (p := (· ≠ '\\')) (l := name.toList.reverse)
  cases front : name.toList.reverse.dropWhile (· ≠ '\\') with
  | nil =>
    rw [front, List.append_nil] at whole
    refine .inl ⟨?_, ?_⟩
    · rw [space, front]
      rfl
    · rw [short, whole, List.reverse_reverse, String.ofList_toList]
  | cons c rest =>
    have stop : c = '\\' := by
      have not := List.head?_dropWhile_not (· ≠ '\\') name.toList.reverse
      rw [front] at not
      simpa using not
    have parts := congrArg List.reverse whole
    rw [front, stop, List.reverse_reverse] at parts
    refine .inr ?_
    rw [space, short, String.toList_ofList, String.toList_ofList, front]
    simpa using parts.symm

theorem stripRoot_eq_iff : stripRoot name = name ↔ name.toList.head? ≠ some '\\' := by
  constructor
  · intro unrooted rooted
    have not := List.head?_dropWhile_not (· = '\\') name.toList
    have text : (stripRoot name).toList = name.toList.dropWhile (· = '\\') := String.toList_ofList
    rw [← text, unrooted, rooted] at not
    cases not
  · intro unrooted
    apply String.toList_inj.mp
    rw [stripRoot, String.toList_ofList]
    cases text : name.toList with
    | nil => rfl
    | cons c cs =>
      have other : c ≠ '\\' := by
        rintro rfl
        exact unrooted (by rw [text]; rfl)
      simp [other]

theorem within_space_short (unrooted : stripRoot name = name) :
    within (space name) (short name) = name := by
  rcases segment_cases name with ⟨global, only⟩ | parts
  · rw [within, if_pos global, only]
  · have some : space name ≠ "" := by
      intro global
      apply stripRoot_eq_iff.mp unrooted
      rw [parts, global]
      rfl
    apply String.toList_inj.mp
    rw [toList_within some, parts]

theorem stripRoot_within {space : String} (unrooted : space.toList.head? ≠ some '\\')
    (segment : IsSegment word) : stripRoot (within space word) = within space word := by
  rw [stripRoot_eq_iff]
  by_cases global : space = ""
  · rw [within, if_pos global]
    exact segment.unrooted
  · rw [toList_within global]
    cases text : space.toList with
    | nil => exact absurd (String.toList_eq_nil_iff.mp text) global
    | cons c cs =>
      rw [text] at unrooted
      exact unrooted

theorem within_inj {a b : String} : within a word = within b word ↔ a = b := by
  constructor
  · intro same
    have texts := congrArg String.toList same
    by_cases globalA : a = "" <;> by_cases globalB : b = ""
    · rw [globalA, globalB]
    · have longer := congrArg List.length texts
      rw [toList_within globalB, within, if_pos globalA, List.length_append, List.length_cons] at longer
      omega
    · have longer := congrArg List.length texts
      rw [toList_within globalA, within, if_pos globalB, List.length_append, List.length_cons] at longer
      omega
    · rw [toList_within globalA, toList_within globalB] at texts
      exact String.toList_inj.mp (List.append_cancel_right texts)
  · rintro rfl
    rfl

/-! ### Names without a namespace -/

section
variable {piece l : List Char}

theorem length_removeAll_le (piece : List Char) (skip : Nat) (l : List Char) :
    (removeAll piece skip l).length ≤ l.length := by
  induction l generalizing skip with
  | nil => simp [removeAll]
  | cons c rest ih =>
    cases skip with
    | zero =>
      have dropped := ih (piece.length - 1)
      have kept := ih 0
      unfold removeAll
      split
      · rw [List.length_cons]
        omega
      · rw [List.length_cons, List.length_cons]
        omega
    | succ skip =>
      have dropped := ih skip
      rw [removeAll, List.length_cons]
      omega

theorem removeAll_skip (piece front l : List Char) :
    removeAll piece front.length (front ++ l) = removeAll piece 0 l := by
  induction front with
  | nil => rfl
  | cons c front ih => exact ih

theorem removeAll_append (some : piece ≠ []) (l : List Char) :
    removeAll piece 0 (piece ++ l) = removeAll piece 0 l := by
  cases piece with
  | nil => exact absurd rfl some
  | cons c rest =>
    have front : ((c :: rest).isPrefixOf (c :: (rest ++ l)) && !(c :: rest).isEmpty) = true := by
      rw [Bool.and_eq_true, List.isPrefixOf_iff_prefix]
      exact ⟨List.prefix_append (c :: rest) l, rfl⟩
    rw [List.cons_append, removeAll, if_pos front]
    exact removeAll_skip (c :: rest) rest l

theorem removeAll_eq_self_iff (some : piece ≠ []) : removeAll piece 0 l = l ↔ ¬ piece <:+: l := by
  induction l with
  | nil =>
    apply iff_of_true rfl
    intro occurs
    exact some (List.infix_nil.mp occurs)
  | cons c rest ih =>
    by_cases front : piece <+: c :: rest
    · have found : (piece.isPrefixOf (c :: rest) && !piece.isEmpty) = true := by
        simpa [List.isPrefixOf_iff_prefix] using ⟨front, some⟩
      apply iff_of_false
      · intro same
        have shorter := length_removeAll_le piece (piece.length - 1) rest
        rw [removeAll, if_pos found] at same
        rw [same, List.length_cons] at shorter
        omega
      · intro absent
        exact absent front.isInfix
    · have other : ¬ (piece.isPrefixOf (c :: rest) && !piece.isEmpty) = true := by
        simp [List.isPrefixOf_iff_prefix, front]
      rw [removeAll, if_neg other, List.infix_cons_iff, List.cons_inj_right, ih]
      simp [front]

end

theorem withoutSpace_behind (space rest : String) :
    withoutSpace space (space ++ "\\" ++ rest) = withoutSpace space rest := by
  unfold withoutSpace
  have text : (space ++ "\\" ++ rest).toList = (space.toList ++ ['\\']) ++ rest.toList := by
    rw [String.toList_append, String.toList_append]
    rfl
  rw [text, removeAll_append (by simp)]

theorem withoutSpace_eq_self_iff {space rest : String} :
    withoutSpace space rest = rest ↔ ¬ (space.toList ++ ['\\']) <:+: rest.toList := by
  rw [← removeAll_eq_self_iff (by simp), ← String.toList_inj, withoutSpace, String.toList_ofList]

theorem length_withoutSpace_le (space rest : String) :
    (withoutSpace space rest).length ≤ rest.length := by
  rw [← String.length_toList, ← String.length_toList, withoutSpace, String.toList_ofList]
  exact length_removeAll_le _ 0 _

end TypeHints.ClassName
