import TypeHints.Json.Document

/-!
Two layouts of a document: on one line without blanks, and with every item and member on a line of
its own, indented by two blanks a level. Strings escape the quote, the backslash and the characters
below a blank, and nothing else.
-/
namespace TypeHints.Json

def hexDigits : List Char := "0123456789abcdef".toList

def escapeChar (c : Char) : List Char :=
  if c = '"' then ['\\', '"']
  else if c = '\\' then ['\\', '\\']
  else if c = '\n' then ['\\', 'n']
  else if c = '\r' then ['\\', 'r']
  else if c = '\t' then ['\\', 't']
  else if c = '\x08' then ['\\', 'b']
  else if c = '\x0c' then ['\\', 'f']
  else if c.toNat < 0x20 then
    ['\\', 'u', '0', '0', hexDigits.getD (c.toNat / 16) '0', hexDigits.getD (c.toNat % 16) '0']
  else [c]

def quote (s : String) : String :=
  String.ofList ('"' :: s.toList.flatMap escapeChar ++ ['"'])

def separated (separator : String) (pieces : List String) : String :=
  separator.intercalate pieces

/-- A name that could not be decoded is left empty. -/
def labelText : Label → String
  | .ok name => quote name
  | .error _ => quote ""

def scalarText : Document → String
  | .null => "null"
  | .bool value => if value then "true" else "false"
  | .integer value => toString value
  | .float value => value.scientific
  | .text value => quote value
  | _ => "null"

mutual

def Document.compact : Document → String
  | .list items _ => "[" ++ separated "," (compactItems items) ++ "]"
  | .object members _ => "\x7b" ++ separated "," (compactMembers members) ++ "\x7d"
  | d => scalarText d

def compactItems : List Document → List String
  | [] => []
  | d :: rest => d.compact :: compactItems rest

def compactMembers : List (Label × Document) → List String
  | [] => []
  | (label, d) :: rest => (labelText label ++ ":" ++ d.compact) :: compactMembers rest

end

def newline (level : Nat) : String := "\n" ++ String.ofList (List.replicate (2 * level) ' ')

/-- Pieces between brackets, each on its line; no pieces give the bare brackets. -/
def block (level : Nat) (opening closing : String) (pieces : List String) : String :=
  if pieces.isEmpty then opening ++ closing
  else
    opening ++ newline (level + 1) ++ separated ("," ++ newline (level + 1)) pieces ++
      newline level ++ closing

mutual

/-- The document over several lines, its first one at `level`. -/
def Document.prettyAt (level : Nat) : Document → String
  | .list items _ => block level "[" "]" (prettyItems (level + 1) items)
  | .object members _ => block level "\x7b" "\x7d" (prettyMembers (level + 1) members)
  | d => scalarText d

def prettyItems (level : Nat) : List Document → List String
  | [] => []
  | d :: rest => d.prettyAt level :: prettyItems level rest

def prettyMembers (level : Nat) : List (Label × Document) → List String
  | [] => []
  | (label, d) :: rest => (labelText label ++ ": " ++ d.prettyAt level) :: prettyMembers level rest

end

def Document.pretty (d : Document) : String := d.prettyAt 0

end TypeHints.Json
