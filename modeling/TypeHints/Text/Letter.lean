import TypeHints.Text.Table

/-!
# Blanks, letters and word characters

`isBlank` is the White_Space property, `isLetterOrNumber` the Alphabetic property with the numeric
categories, `isWordChar` has marks and connectors but no numbers other than digits, and `isHidden`
tells what a quoted text does not show.
-/
namespace TypeHints.Text

def inRanges (ranges : List (Nat × Nat)) (code : Nat) : Bool :=
  ranges.any fun range => range.1 ≤ code && code ≤ range.2

/-- Unicode White_Space. -/
def isBlank (c : Char) : Bool :=
  inRanges
    [(9, 13), (32, 32), (0x85, 0x85), (0xA0, 0xA0), (0x1680, 0x1680), (0x2000, 0x200A),
     (0x2028, 0x2029), (0x202F, 0x202F), (0x205F, 0x205F), (0x3000, 0x3000)]
    c.toNat

def isAscii (c : Char) : Bool := c.toNat < 128

/-- A letter or a number of any numeric category. -/
def isLetterOrNumber (c : Char) : Bool :=
  if isAscii c then c.isAlphanum else inRanges Table.lettersAndNumbers c.toNat

/-- A letter, decimal digit, mark, connector or joiner. -/
def isWordChar (c : Char) : Bool :=
  if isAscii c then c.isAlphanum || c == '_' else inRanges Table.wordCharacters c.toNat

/-- A character that shows nothing of its own. -/
def isHidden (c : Char) : Bool :=
  if isAscii c then c.toNat < 0x20 || c.toNat = 0x7F else inRanges Table.hidden c.toNat

/-- What a variable, parameter or template is named with. -/
def isVariableChar (c : Char) : Bool := isLetterOrNumber c || c == '_'

/-! ### Trimming -/

def trimStart (cs : List Char) : List Char := cs.dropWhile isBlank

def trimEnd (cs : List Char) : List Char := (cs.reverse.dropWhile isBlank).reverse

def trim (cs : List Char) : List Char := trimEnd (trimStart cs)

end TypeHints.Text
