import TypeHints.Text.Bytes

/-!
A byte offset is a place of a text if it falls between two characters or at an end. Only at places
can a text be cut, and `slice?` cuts nowhere else.
-/
namespace TypeHints.Text

variable {cs : List Char} {n start stop : Nat}

theorem length_le_byteSize (cs : List Char) : cs.length ≤ byteSize cs := by
  induction cs with
  | nil => exact Nat.le_refl _
  | cons c rest ih =>
    have positive := Char.utf8Size_pos c
    simp only [List.length_cons, byteSize]
    omega

/-- The bytes before the offset make up whole characters of the text. -/
def IsPlace (cs : List Char) (n : Nat) : Prop := byteSize (takeBytes n cs) = n

instance (cs : List Char) (n : Nat) : Decidable (IsPlace cs n) :=
  inferInstanceAs (Decidable (byteSize (takeBytes n cs) = n))

/-- The text between two places. There is none elsewhere. -/
def slice? (start stop : Nat) (cs : List Char) : Option (List Char) :=
  if start ≤ stop ∧ IsPlace cs start ∧ IsPlace cs stop then some (slice start stop cs) else none

theorem isPlace_append (a b : List Char) : IsPlace (a ++ b) (byteSize a) := by
  unfold IsPlace
  rw [takeBytes_byteSize_append]

theorem isPlace_iff : IsPlace cs n ↔ ∃ a b, cs = a ++ b ∧ n = byteSize a := by
  constructor
  · intro place
    exact ⟨takeBytes n cs, dropBytes n cs, (takeBytes_append_dropBytes n cs).symm, place.symm⟩
  · rintro ⟨a, b, rfl, rfl⟩
    exact isPlace_append a b

theorem isPlace_zero (cs : List Char) : IsPlace cs 0 := isPlace_append [] cs

theorem isPlace_byteSize (cs : List Char) : IsPlace cs (byteSize cs) :=
  isPlace_iff.mpr ⟨cs, [], (List.append_nil cs).symm, rfl⟩

theorem IsPlace.le (place : IsPlace cs n) : n ≤ byteSize cs := by
  obtain ⟨a, b, rfl, rfl⟩ := isPlace_iff.mp place
  rw [byteSize_append]
  omega

theorem slice?_append (a b c : List Char) :
    slice? (byteSize a) (byteSize (a ++ b)) (a ++ (b ++ c)) = some b := by
  have first := isPlace_append a (b ++ c)
  have last := isPlace_append (a ++ b) c
  have ordered : byteSize a ≤ byteSize (a ++ b) := by
    rw [byteSize_append]
    omega
  rw [List.append_assoc] at last
  unfold slice?
  rw [if_pos ⟨ordered, first, last⟩, slice_append]

theorem places_of_slice? {piece : List Char} (h : slice? start stop cs = some piece) :
    start ≤ stop ∧ IsPlace cs start ∧ IsPlace cs stop := by
  unfold slice? at h
  split at h
  next places => exact places
  next => cases h

theorem slice?_place (place : IsPlace cs n) :
    slice? 0 n cs = some (takeBytes n cs) ∧ slice? n (byteSize cs) cs = some (dropBytes n cs) := by
  obtain ⟨a, b, rfl, rfl⟩ := isPlace_iff.mp place
  have front := slice?_append [] a b
  have back := slice?_append a b []
  rw [List.append_nil] at back
  rw [takeBytes_byteSize_append, dropBytes_byteSize_append]
  exact ⟨front, back⟩

end TypeHints.Text
