import TypeHints.Decimal.Shortest

/-!
# JSON documents

A document as far as it could be read, with each fault of the text in its place: a value that is
`broken`, a name that is none, or the `stop` of a list or an object that was never closed. So a
reader of documents that goes from left to right meets the first fault that matters to it.
-/
namespace TypeHints.Json
open Decimal

inductive Fault where
  | endOfValue | endOfString | endOfList | endOfObject
  | value | word | number | numberRange | colon | commaOrBracket | commaOrBrace | key
  | trailingComma | trailing | tooDeep
  | controlCharacter | escape | loneSurrogate | unfinishedSurrogate
  deriving DecidableEq, Repr

def Fault.message : Fault → String
  | .endOfValue => "EOF while parsing a value"
  | .endOfString => "EOF while parsing a string"
  | .endOfList => "EOF while parsing a list"
  | .endOfObject => "EOF while parsing an object"
  | .value => "expected value"
  | .word => "expected ident"
  | .number => "invalid number"
  | .numberRange => "number out of range"
  | .colon => "expected `:`"
  | .commaOrBracket => "expected `,` or `]`"
  | .commaOrBrace => "expected `,` or `\x7d`"
  | .key => "key must be a string"
  | .trailingComma => "trailing comma"
  | .trailing => "trailing characters"
  | .tooDeep => "recursion limit exceeded"
  | .controlCharacter => "control character (\\u0000-\\u001F) found while parsing a string"
  | .escape => "invalid escape"
  | .loneSurrogate => "lone leading surrogate in hex escape"
  | .unfinishedSurrogate => "unexpected end of hex escape"

/-- The name of a member, or why it cannot be decoded. -/
abbrev Label := Except Fault String

inductive Document where
  | null
  | bool (value : Bool)
  | integer (value : Int)
  | float (value : Binary64)
  | text (value : String)
  | list (items : List Document) (stop : Option Fault)
  | object (members : List (Label × Document)) (stop : Option Fault)
  /-- A value that nothing can decode. It begins with `start`, unless the text ends before it; what only
  passes over it meets the fault `passed`, if any. -/
  | broken (start : Option Char) (fault : Fault) (passed : Option Fault)
  | deep (d : Document)
  deriving Inhabited, Repr

namespace Document

def ofList (items : List Document) : Document := .list items none

def ofMembers (members : List (String × Document)) : Document :=
  .object (members.map fun (name, d) => (.ok name, d)) none

def ofText? : Option String → Document
  | some s => .text s
  | none => .null

/-- The text ends where a value should stand. -/
def absent : Document := .broken none .endOfValue (some .endOfValue)

def members : Document → List (String × Document)
  | .object ms _ => ms.filterMap fun (label, d) => label.toOption.map (·, d)
  | _ => []

def member? (name : String) (d : Document) : Option Document :=
  (d.members.reverse.find? (·.1 = name)).map Prod.snd

end Document

end TypeHints.Json
