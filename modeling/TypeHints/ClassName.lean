/-!
# Names of classes

A name is made of segments between backslashes; a leading backslash marks it as absolute and belongs
to no class's own name. Case matters in no letter of ASCII.
-/
namespace TypeHints.ClassName

def stripRoot (name : String) : String := String.ofList (name.toList.dropWhile (· = '\\'))

def fold (name : String) : String := String.ofList (name.toList.map Char.toLower)

/-- What two spellings of one class have in common. -/
def key (name : String) : String := fold (stripRoot name)

/-- Whether two names differ at most in case. -/
def agree (a b : String) : Bool := fold a = fold b

/-- The last segment. -/
def short (name : String) : String :=
  String.ofList (name.toList.reverse.takeWhile (· ≠ '\\')).reverse

/-- All segments but the last, without the backslash between; empty for a single segment. -/
def space (name : String) : String :=
  String.ofList ((name.toList.reverse.dropWhile (· ≠ '\\')).drop 1).reverse

/-- The first segment, and the others after its backslash if there are any. -/
def splitFirst (name : String) : String × Option String :=
  match name.toList.span (· ≠ '\\') with
  | (first, _ :: rest) => (String.ofList first, some (String.ofList rest))
  | (first, []) => (String.ofList first, none)

/-- Drops every occurrence of `piece` from left to right; `skip` characters are still part of one. -/
def removeAll (piece : List Char) : (skip : Nat) → List Char → List Char
  | _, [] => []
  | skip + 1, _ :: rest => removeAll piece skip rest
  | 0, c :: rest =>
    if piece.isPrefixOf (c :: rest) && !piece.isEmpty then removeAll piece (piece.length - 1) rest
    else c :: removeAll piece 0 rest

/-- The name without any occurrence of a namespace and the backslash after it. -/
def withoutSpace (space name : String) : String :=
  String.ofList (removeAll (space.toList ++ ['\\']) 0 name.toList)

theorem dropWhile_dropWhile {α : Type} (p : α → Bool) (l : List α) :
    (l.dropWhile p).dropWhile p = l.dropWhile p := by
  induction l with
  | nil => rfl
  | cons a rest ih =>
    by_cases h : p a = true
    · simp [h, ih]
    · simp [h]

@[simp] theorem stripRoot_stripRoot (name : String) : stripRoot (stripRoot name) = stripRoot name := by
  simp [stripRoot, dropWhile_dropWhile]

@[simp] theorem key_stripRoot (name : String) : key (stripRoot name) = key name := by
  simp [key]

end TypeHints.ClassName
