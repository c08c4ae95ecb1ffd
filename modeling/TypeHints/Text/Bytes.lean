/-!
# Offsets in bytes

A text is a list of characters, and a place in it is the number of UTF-8 bytes before that place.
-/
namespace TypeHints.Text

/-- Bytes that a text takes up. -/
def byteSize : List Char → Nat
  | [] => 0
  | c :: rest => c.utf8Size + byteSize rest

/-- The whole characters within the first `n` bytes. -/
def takeBytes : Nat → List Char → List Char
  | _, [] => []
  | n, c :: rest => if c.utf8Size ≤ n then c :: takeBytes (n - c.utf8Size) rest else []

/-- What `takeBytes` leaves. -/
def dropBytes : Nat → List Char → List Char
  | _, [] => []
  | n, c :: rest => if c.utf8Size ≤ n then dropBytes (n - c.utf8Size) rest else c :: rest

/-- The text between two places. -/
def slice (start stop : Nat) (cs : List Char) : List Char := dropBytes start (takeBytes stop cs)

@[simp] theorem byteSize_append (a b : List Char) : byteSize (a ++ b) = byteSize a + byteSize b := by
  induction a with
  | nil => simp [byteSize]
  | cons c rest ih => simp [byteSize, ih, Nat.add_assoc]

theorem takeBytes_append_dropBytes (n : Nat) (cs : List Char) :
    takeBytes n cs ++ dropBytes n cs = cs := by
  induction cs generalizing n with
  | nil => rfl
  | cons c rest ih =>
    by_cases fits : c.utf8Size ≤ n
    · simp [takeBytes, dropBytes, fits, ih]
    · simp [takeBytes, dropBytes, fits]

/-- A cut at the end of `a` gives `a` back. -/
theorem takeBytes_byteSize_append (a b : List Char) : takeBytes (byteSize a) (a ++ b) = a := by
  induction a with
  | nil =>
    cases b with
    | nil => rfl
    | cons c rest =>
      have positive := Char.utf8Size_pos c
      simp [byteSize, takeBytes, Nat.not_le.mpr positive]
  | cons c rest ih => simp [byteSize, takeBytes, ih]

theorem dropBytes_byteSize_append (a b : List Char) : dropBytes (byteSize a) (a ++ b) = b := by
  have whole := takeBytes_append_dropBytes (byteSize a) (a ++ b)
  rw [takeBytes_byteSize_append] at whole
  exact List.append_cancel_left whole

theorem slice_append (a b c : List Char) :
    slice (byteSize a) (byteSize (a ++ b)) (a ++ (b ++ c)) = b := by
  rw [slice, ← List.append_assoc, takeBytes_byteSize_append, dropBytes_byteSize_append]

end TypeHints.Text
