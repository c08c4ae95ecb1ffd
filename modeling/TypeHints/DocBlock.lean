import TypeHints.Hint.Read

/-!
# Doc comments

A comment is a text of lines without its decoration. A tag is looked for at the beginning of each
line, and its body is cut out of the text up to the line of the next tag. Only four tags mean
anything here, and the type in one is as much of its body as reads as a type expression.
-/
namespace TypeHints
open Text

structure DocTag where
  name : String
  body : String
  deriving DecidableEq, Repr

structure DocBlock where
  tags : List DocTag := []
  deriving DecidableEq, Repr

structure TemplateTag where
  name : String
  bound : Option String
  deriving DecidableEq, Repr

namespace DocBlock

/-! ### Lines -/

def dropPrefix (piece cs : List Char) : List Char :=
  if piece.isPrefixOf cs then cs.drop piece.length else cs

def dropSuffix (piece cs : List Char) : List Char :=
  if piece.isSuffixOf cs then cs.take (cs.length - piece.length) else cs

/-- The lines of a text without their ends; a carriage return belongs to the line feed after it, and
a line feed at the very end begins no line. -/
def linesOf : List Char → List (List Char)
  | [] => []
  | '\n' :: rest => [] :: linesOf rest
  | '\r' :: '\n' :: rest => [] :: linesOf rest
  | c :: rest =>
    match linesOf rest with
    | line :: others => (c :: line) :: others
    | [] => [[c]]

/-- A line without its indentation and one star. -/
def undecorated (line : List Char) : List Char := dropPrefix ['*'] (trimStart line)

/-- The lines between the delimiters of a comment. -/
def contentLines (comment : String) : List (List Char) :=
  let body := dropSuffix "*/".toList (dropPrefix "/**".toList (trim comment.toList))
  (linesOf body).map undecorated

/-! ### Tags -/

def isTagChar (c : Char) : Bool := isWordChar c || c == ':' || c == '\\' || c == '-'

/-- Spaces and tabs are what may stand before a tag. -/
def isGap (c : Char) : Bool := c == ' ' || c == '\t'

def tagOf? (cs : List Char) : Option (List Char × List Char) :=
  match cs.dropWhile isGap with
  | '@' :: c :: rest =>
    if c.isAlpha then
      some ('@' :: c :: rest.takeWhile isTagChar, rest.dropWhile isTagChar)
    else none
  | _ => none

def joinLines (lines : List (List Char)) : List Char := ['\n'].intercalate lines

structure Span where
  start : Nat
  stop : Nat
  deriving DecidableEq, Repr

/-- The place of the tag that a text begins with, which is itself at a place. -/
def spanOf? (place : Nat) (cs : List Char) : Option Span :=
  (tagOf? cs).map fun (name, _) =>
    let start := place + byteSize (cs.takeWhile isGap)
    ⟨start, start + byteSize name⟩

/-- Where tags stand in a text from a place on. A tag begins a line, and `fresh` tells that the text
does. -/
def spans (fresh : Bool) (place : Nat) : List Char → List Span
  | [] => []
  | c :: rest =>
    let later := spans (c == '\n') (place + c.utf8Size) rest
    if fresh then (spanOf? place (c :: rest)).toList ++ later else later

/-- The beginning of the line around a place. -/
def lineStart (text : List Char) (place : Nat) : Nat :=
  byteSize ((takeBytes place text).reverse.dropWhile (· != '\n')).reverse

def bodyStop (text : List Char) : (later : List Span) → Nat
  | next :: _ => lineStart text next.start
  | [] => byteSize text

/-- The tags at these places of a text; the body of each ends where the line of the next one begins. -/
def tagsAt (text : List Char) : List Span → List DocTag
  | [] => []
  | span :: later =>
    ⟨String.ofList (slice span.start span.stop text),
      String.ofList (trim (slice span.stop (bodyStop text later) text))⟩ :: tagsAt text later

def ofComment (comment : String) : DocBlock :=
  let text := joinLines (contentLines comment)
  ⟨tagsAt text (spans true 0 text)⟩

def named (b : DocBlock) (name : String) : List DocTag := b.tags.filter (·.name = name)

/-! ### Types in tags -/

def splitType (body : List Char) : Option (String × List Char) :=
  match Hint.readPrefix (String.ofList body) with
  | .ok (_, stop) => some (String.ofList (trim (takeBytes stop body)), dropBytes stop body)
  | .error _ => none

/-- The type and the name of a parameter: marks of reference and variadics may stand between. -/
def splitParam (body : List Char) : Option (String × String) := do
  let (type, rest) ← splitType body
  let rest := trimStart (dropPrefix ['&'] (trimStart rest))
  match dropPrefix "...".toList rest with
  | '$' :: name => some (type, String.ofList (name.takeWhile isVariableChar))
  | _ => none

def paramType? (b : DocBlock) (parameter : String) : Option String :=
  (b.named "@param").findSome? fun tag =>
    match splitParam tag.body.toList with
    | some (type, name) => if name = parameter then some type else none
    | none => none

def firstType? (tags : List DocTag) : Option String :=
  tags.findSome? fun tag => (splitType tag.body.toList).map Prod.fst

def varType? (b : DocBlock) : Option String := firstType? (b.named "@var")

def returnType? (b : DocBlock) : Option String := firstType? (b.named "@return")

def afterWord? (word cs : List Char) : Option (List Char) :=
  if word.isPrefixOf cs && (cs.drop word.length).head?.any isBlank then some (cs.drop word.length)
  else none

/-- A template's name, and its bound after `of` or `as`. -/
def templateOf? (body : List Char) : Option TemplateTag :=
  let name := body.takeWhile (!isBlank ·)
  if name.isEmpty || !name.all isVariableChar then none
  else
    let rest := trimStart (body.dropWhile (!isBlank ·))
    let bound := (afterWord? "of".toList rest).orElse fun _ => afterWord? "as".toList rest
    some ⟨String.ofList name, (bound.bind fun r => splitType (trimStart r)).map Prod.fst⟩

def templates (b : DocBlock) : List TemplateTag :=
  (b.named "@template").filterMap fun tag => templateOf? tag.body.toList

end DocBlock

end TypeHints
