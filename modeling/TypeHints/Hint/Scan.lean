import TypeHints.Hint.Token
import TypeHints.Text.Letter

/-!
# From text to tokens

`scan` reads one lexeme and says how many characters beyond the first belong to it, so a token takes
at least one character and `tokensFrom` gets through every text.
-/
namespace TypeHints.Hint
open Text Decimal

/-- A name starts with a letter of ASCII, an underscore or any visible character beyond ASCII. -/
def isNameStart (c : Char) : Bool := c.isAlpha || c == '_' || (!isAscii c && !isBlank c)

/-- Keywords such as `non-empty-string` hold dashes. -/
def isNameChar (c : Char) : Bool := isNameStart c || c.isDigit || c == '-'

/-- The longest run of name segments joined by single backslashes; `inside` tells whether a segment
has begun. -/
def takeName : (inside : Bool) → List Char → List Char
  | _, [] => []
  | false, c :: rest => if isNameStart c then c :: takeName true rest else []
  | true, c :: rest =>
    if isNameChar c then c :: takeName true rest
    else if c = '\\' then c :: takeName false rest
    else []

/-- A name that ends in a backslash lacks its last segment. -/
def nameLexeme (text : List Char) : Lexeme :=
  if text.getLast? = some '\\' then .malformed (.name (String.ofList text))
  else .name (String.ofList text)

def variableLexeme (rest : List Char) : Lexeme × Nat :=
  match rest with
  | c :: _ =>
    if isNameStart c then
      let name := rest.takeWhile isVariableChar
      (if name = "this".toList then .this else .var (String.ofList name), name.length)
    else (.malformed .namelessVariable, 0)
  | [] => (.malformed .namelessVariable, 0)

/-- The characters that a backslash and `e` stand for between quotes `q`. -/
def unescape (q e : Char) : List Char :=
  if q = '"' ∧ e = 'n' then ['\n']
  else if q = '"' ∧ e = 't' then ['\t']
  else if q = '"' ∧ e = 'r' then ['\r']
  else if e = q ∨ e = '\\' then [e]
  else ['\\', e]

/-- The content up to the closing quote, and how many characters that took, the quote included. -/
def takeQuoted (q : Char) : List Char → Option (List Char × Nat)
  | [] => none
  | c :: rest =>
    if c = q then some ([], 1)
    else if c = '\\' then
      match rest with
      | [] => none
      | e :: rest => (takeQuoted q rest).map fun (out, n) => (unescape q e ++ out, n + 2)
    else (takeQuoted q rest).map fun (out, n) => (c :: out, n + 1)

def quotedLexeme (q : Char) (rest : List Char) : Lexeme × Nat :=
  match takeQuoted q rest with
  | some (out, n) => (.quoted (String.ofList out), n)
  | none => (.malformed .unterminatedString, rest.length)

/-! ### Numbers -/

def isDigitOrGap (c : Char) : Bool := c.isDigit || c == '_'

def isHexDigit (c : Char) : Bool :=
  c.isDigit || ('a' ≤ c && c ≤ 'f') || ('A' ≤ c && c ≤ 'F')

def hexValue (c : Char) : Nat :=
  if c.isDigit then c.toNat - 48 else if 'a' ≤ c then c.toNat - 87 else c.toNat - 55

def numeral (base : Nat) (digits : List Char) : Nat :=
  digits.foldl (fun total c => total * base + hexValue c) 0

/-- The integer of a magnitude, when it fits 64 bits. -/
def toInt64? (negative : Bool) (magnitude : Nat) : Option Int64 :=
  if negative then
    if magnitude ≤ Nat.pow 2 63 then some (Int64.ofInt (-magnitude)) else none
  else if magnitude < Nat.pow 2 63 then some (Int64.ofInt magnitude) else none

/-- A magnitude in base sixteen has to fit before the sign is applied. -/
def hexLexeme (negative : Bool) (written digits : List Char) : Lexeme :=
  let plain := digits.filter (· != '_')
  let value := numeral 16 plain
  if plain.isEmpty || Nat.pow 2 63 ≤ value then .malformed (.integer (String.ofList written))
  else .int (Int64.ofInt (if negative then -value else value))

/-- A fraction begins with a point that no second point follows. -/
def takeFraction : List Char → List Char
  | '.' :: rest => if rest.head? = some '.' then [] else '.' :: rest.takeWhile isDigitOrGap
  | _ => []

/-- An exponent counts only with a digit. -/
def takeExponent : List Char → List Char
  | e :: rest =>
    let signed := rest.head? = some '+' || rest.head? = some '-'
    let digits := (if signed then rest.tail else rest).takeWhile Char.isDigit
    if (e = 'e' ∨ e = 'E') ∧ digits ≠ [] then
      e :: ((if signed then rest.take 1 else []) ++ digits)
    else []
  | [] => []

def exponentValue : List Char → Int
  | _ :: '-' :: digits => -(numeral 10 digits : Int)
  | _ :: '+' :: digits => numeral 10 digits
  | _ :: digits => numeral 10 digits
  | [] => 0

def floatLexeme (negative : Bool) (plain whole fraction exponent : List Char) : Lexeme :=
  let digits := (whole ++ fraction).filter Char.isDigit
  if digits.isEmpty then .malformed (.float (String.ofList plain))
  else
    let places := (fraction.filter Char.isDigit).length
    .float (Binary64.ofDecimal negative (numeral 10 digits) (exponentValue exponent - places))

def integerLexeme (negative : Bool) (plain digits : List Char) : Lexeme :=
  match if digits.isEmpty then none else toInt64? negative (numeral 10 digits) with
  | some value => .int value
  | none => .malformed (.integer (String.ofList plain))

/-- A number at the start of `cs`, and how many characters it takes. -/
def numberLexeme (cs : List Char) : Lexeme × Nat :=
  let negative := cs.head? = some '-'
  let signText := if negative then ['-'] else []
  let body := if negative then cs.tail else cs
  let marker := body.take 2
  if marker = ['0', 'x'] || marker = ['0', 'X'] then
    let digits := (body.drop 2).takeWhile fun c => isHexDigit c || c == '_'
    let written := signText ++ marker ++ digits
    (hexLexeme negative written digits, written.length)
  else
    let whole := body.takeWhile isDigitOrGap
    let rest := body.dropWhile isDigitOrGap
    let fraction := takeFraction rest
    let exponent := takeExponent (rest.drop fraction.length)
    let written := signText ++ whole ++ fraction ++ exponent
    let plain := written.filter (· != '_')
    if fraction.isEmpty && exponent.isEmpty then
      (integerLexeme negative plain (whole.filter Char.isDigit), written.length)
    else (floatLexeme negative plain whole fraction exponent, written.length)

/-! ### One lexeme -/

/-- Punctuation of a single character that starts no longer mark. -/
def soloMark? : Char → Option Mark
  | '|' => some .pipe
  | '&' => some .amp
  | '?' => some .question
  | '(' => some .openParen
  | ')' => some .closeParen
  | '<' => some .openAngle
  | '>' => some .closeAngle
  | '[' => some .openSquare
  | ']' => some .closeSquare
  | '\x7b' => some .openCurly
  | '\x7d' => some .closeCurly
  | ',' => some .comma
  | '*' => some .star
  | _ => none

/-- The lexeme that starts with the character `c`, and how many characters of `rest` belong to it. -/
def scan (c : Char) (rest : List Char) : Lexeme × Nat :=
  match soloMark? c with
  | some m => (.mark m, 0)
  | none =>
    if c = ':' then
      if rest.head? = some ':' then (.mark .doubleColon, 1) else (.mark .colon, 0)
    else if c = '=' then
      if rest.head? = some '>' then (.mark .arrow, 1) else (.mark .equal, 0)
    else if c = '.' ∧ rest.take 2 = ['.', '.'] then (.mark .ellipsis, 2)
    else if c = '$' then variableLexeme rest
    else if c = '\'' ∨ c = '"' then quotedLexeme c rest
    else if c.isDigit || (c == '.' && rest.head?.any Char.isDigit) ||
        (c == '-' && rest.head?.any fun d => d.isDigit || d == '.') then
      let (lexeme, n) := numberLexeme (c :: rest)
      (lexeme, n - 1)
    else if isNameStart c then
      let text := c :: takeName true rest
      (nameLexeme text, text.length - 1)
    else if c = '\\' then
      let text := c :: takeName false rest
      (nameLexeme text, text.length - 1)
    else (.malformed (.character c), 0)

/-- The tokens of a text that starts at byte `offset`, ended by `Lexeme.finish`. -/
def tokensFrom (offset : Nat) (cs : List Char) : List Token :=
  let start := offset + byteSize (cs.takeWhile isBlank)
  match _h : cs.dropWhile isBlank with
  | [] => [⟨.finish, start, []⟩]
  | c :: rest =>
    let (lexeme, n) := scan c rest
    let text := c :: rest.take n
    ⟨lexeme, start, text⟩ :: tokensFrom (start + byteSize text) (rest.drop n)
termination_by cs.length
decreasing_by
  have shorter : (cs.dropWhile isBlank).length ≤ cs.length :=
    (List.dropWhile_sublist isBlank).length_le
  simp only [_h, List.length_cons, List.length_drop] at shorter ⊢
  omega

def tokens (text : String) : List Token := tokensFrom 0 text.toList

end TypeHints.Hint
