import TypeHints.Decimal.Shortest
import TypeHints.Text.Bytes

/-!
# Tokens of a type expression

A token is a lexeme with its place in the text. Text that is no token at all still becomes a lexeme,
`Lexeme.malformed`, so that a reader meets the fault where it stands.
-/
namespace TypeHints.Hint
open Decimal

inductive Mark where
  | pipe | amp | question
  | openParen | closeParen | openAngle | closeAngle
  | openSquare | closeSquare | openCurly | closeCurly
  | comma | colon | doubleColon | ellipsis | equal | arrow | star
  deriving DecidableEq, Repr

def Mark.text : Mark → String
  | .pipe => "|"
  | .amp => "&"
  | .question => "?"
  | .openParen => "("
  | .closeParen => ")"
  | .openAngle => "<"
  | .closeAngle => ">"
  | .openSquare => "["
  | .closeSquare => "]"
  | .openCurly => "\x7b"
  | .closeCurly => "\x7d"
  | .comma => ","
  | .colon => ":"
  | .doubleColon => "::"
  | .ellipsis => "..."
  | .equal => "="
  | .arrow => "=>"
  | .star => "*"

inductive Malformed where
  | name (text : String)
  | namelessVariable
  | unterminatedString
  | integer (text : String)
  | float (text : String)
  | character (c : Char)
  deriving DecidableEq, Repr

def Malformed.message : Malformed → String
  | .name text => s!"malformed name \"{text}\""
  | .namelessVariable => "expected variable name after \"$\""
  | .unterminatedString => "unterminated string literal"
  | .integer text => s!"invalid integer \"{text}\""
  | .float text => s!"invalid float \"{text}\""
  | .character c => s!"unexpected character \"{c}\""

inductive Lexeme where
  /-- Keyword, builtin or class name, possibly qualified. -/
  | name (text : String)
  /-- The variable `$this`. -/
  | this
  /-- Any other variable, without its sigil. -/
  | var (name : String)
  | int (value : Int64)
  | float (value : Binary64)
  /-- A string literal, unescaped. -/
  | quoted (text : String)
  | mark (m : Mark)
  | malformed (what : Malformed)
  | finish
  deriving DecidableEq, Repr

def Lexeme.describe : Lexeme → String
  | .name text => s!"identifier \"{text}\""
  | .this => "\"$this\""
  | .var sigiled => s!"variable \"${sigiled}\""
  | .int value => s!"integer {value.toInt}"
  | .float value => s!"float {value.positional}"
  | .quoted _ => "string literal"
  | .mark m => s!"\"{m.text}\""
  | .malformed what => what.message
  | .finish => "end of input"

structure Token where
  lexeme : Lexeme
  start : Nat
  /-- The characters that the token is written with. -/
  text : List Char
  deriving DecidableEq, Repr

def Token.stop (t : Token) : Nat := t.start + Text.byteSize t.text

def Token.is (t : Token) (m : Mark) : Bool := t.lexeme = .mark m

end TypeHints.Hint
