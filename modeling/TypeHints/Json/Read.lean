import TypeHints.Json.Number
import TypeHints.Text.Bytes

/-!
# Reading JSON

`Document.ofString` reads the value that a text starts with; what follows that value is not looked
at. Reading never fails: a text that is no JSON gives a document with the fault in it.
-/
namespace TypeHints.Json

def isJsonBlank (c : Char) : Bool := c == ' ' || c == '\n' || c == '\t' || c == '\r'

def skipBlanks (cs : List Char) : List Char := cs.dropWhile isJsonBlank

/-! ### Strings -/

def hexDigit? (c : Char) : Option Nat :=
  if c.isDigit then some (c.toNat - 48)
  else if 'a' ≤ c && c ≤ 'f' then some (c.toNat - 87)
  else if 'A' ≤ c && c ≤ 'F' then some (c.toNat - 55)
  else none

/-- Four hexadecimal digits. A text ends in them if it has fewer than four bytes. -/
def hexUnit (cs : List Char) : Except Fault Nat :=
  match cs with
  | a :: b :: c :: d :: _ =>
    match hexDigit? a, hexDigit? b, hexDigit? c, hexDigit? d with
    | some a, some b, some c, some d => .ok (((a * 16 + b) * 16 + c) * 16 + d)
    | _, _, _, _ => .error .escape
  | _ => .error (if Text.byteSize cs < 4 then .endOfString else .escape)

/-- The character that an escape stands for, and how many characters after the backslash it takes. A
character beyond the first plane is written as two surrogates. -/
def readEscape (cs : List Char) : Except Fault (Char × Nat) :=
  match cs with
  | [] => .error .endOfString
  | '"' :: _ => .ok ('"', 1)
  | '\\' :: _ => .ok ('\\', 1)
  | '/' :: _ => .ok ('/', 1)
  | 'b' :: _ => .ok ('\x08', 1)
  | 'f' :: _ => .ok ('\x0c', 1)
  | 'n' :: _ => .ok ('\n', 1)
  | 'r' :: _ => .ok ('\r', 1)
  | 't' :: _ => .ok ('\t', 1)
  | 'u' :: rest => do
    let high ← hexUnit rest
    if 0xDC00 ≤ high && high ≤ 0xDFFF then .error .loneSurrogate
    else if high < 0xD800 || 0xDBFF < high then .ok (Char.ofNat high, 5)
    else
      match rest.drop 4 with
      | [] => .error .endOfString
      | '\\' :: [] => .error .endOfString
      | '\\' :: 'u' :: more =>
        let low ← hexUnit more
        if low < 0xDC00 || 0xDFFF < low then .error .loneSurrogate
        else .ok (Char.ofNat ((high - 0xD800) * 1024 + (low - 0xDC00) + 0x10000), 11)
      | _ => .error .unfinishedSurrogate
  | _ => .error .escape

def readString : List Char → Except Fault (List Char)
  | [] => .error .endOfString
  | c :: rest =>
    if c = '"' then .ok []
    else if c = '\\' then
      match readEscape rest with
      | .error fault => .error fault
      | .ok (e, n) => (readString (rest.drop n)).map (e :: ·)
    else if c.toNat < 0x20 then .error .controlCharacter
    else (readString rest).map (c :: ·)
termination_by cs => cs.length

/-- How many characters an escape takes after its backslash. It need not stand for a character. -/
def passEscape (cs : List Char) : Except Fault Nat :=
  match cs with
  | [] => .error .endOfString
  | 'u' :: rest => (hexUnit rest).map fun _ => 5
  | c :: _ => if c ∈ ['"', '\\', '/', 'b', 'f', 'n', 'r', 't'] then .ok 1 else .error .escape

/-- How many characters there are up to the closing quote, which is counted too. -/
def passString (taken : Nat) : List Char → Except Fault Nat
  | [] => .error .endOfString
  | c :: rest =>
    if c = '"' then .ok (taken + 1)
    else if c = '\\' then
      match passEscape rest with
      | .error fault => .error fault
      | .ok n => passString (taken + 1 + n) (rest.drop n)
    else if c.toNat < 0x20 then .error .controlCharacter
    else passString (taken + 1) rest
termination_by cs => cs.length

/-- A string after its opening quote: what it says, and how many characters it takes. -/
def readLabel (cs : List Char) : Label × Except Fault Nat :=
  ((readString cs).map String.ofList, passString 0 cs)

/-- Why a string that breaks off cannot be decoded. -/
def Label.faultOr (passed : Fault) : Label → Fault
  | .error fault => fault
  | .ok _ => passed

/-! ### Values -/

abbrev Reading (cs : List Char) (α : Type) := α × Option { rest : List Char // rest.length < cs.length }

/-- One of the words `null`, `true` and `false`, its first letter being known. -/
def readWord (word : List Char) (value : Document) (cs : List Char) : Scalar :=
  let agreed := (word.zip cs).takeWhile fun (a, b) => a = b
  if agreed.length = word.length then .whole value word.length
  else
    let fault := if agreed.length = cs.length then .endOfValue else .word
    .cut fault fault

def readScalar (c : Char) (cs : List Char) : Scalar :=
  if c = 'n' then readWord "null".toList .null cs
  else if c = 't' then readWord "true".toList (.bool true) cs
  else if c = 'f' then readWord "false".toList (.bool false) cs
  else if c = '-' || c.isDigit then readNumber cs
  else .cut .value .value

theorem length_skipBlanks (cs : List Char) : (skipBlanks cs).length ≤ cs.length :=
  (List.dropWhile_sublist isJsonBlank).length_le

/-- Where the next list item starts, or that there is none, or the fault. -/
inductive Turn (cs : List Char) where
  | item (rest : List Char) (noLonger : rest.length ≤ cs.length)
  | closed (rest : List Char) (shorter : rest.length < cs.length)
  | fault (f : Fault)

/-- What stands where an item, a comma or `]` may. -/
def listTurn (first : Bool) (cs : List Char) : Turn cs :=
  match h : skipBlanks cs with
  | [] => .fault .endOfList
  | c :: rest =>
    have bound : (c :: rest).length ≤ cs.length := h ▸ length_skipBlanks cs
    if c = ']' then .closed rest (by simp only [List.length_cons] at bound; omega)
    else if first then .item (c :: rest) bound
    else if c = ',' then
      match hr : skipBlanks rest with
      | [] => .fault .endOfValue
      | d :: more =>
        have inner : (d :: more).length ≤ rest.length := hr ▸ length_skipBlanks rest
        if d = ']' then .fault .trailingComma
        else .item (d :: more) (by simp only [List.length_cons] at bound inner ⊢; omega)
    else .fault .commaOrBracket

/-- What stands where the name of a member, a comma or `}` may; an item is the name after its opening
quote. -/
def objectTurn (first : Bool) (cs : List Char) : Turn cs :=
  match h : skipBlanks cs with
  | [] => .fault .endOfObject
  | c :: rest =>
    have bound : (c :: rest).length ≤ cs.length := h ▸ length_skipBlanks cs
    if c = '\x7d' then .closed rest (by simp only [List.length_cons] at bound; omega)
    else if first then
      if c = '"' then .item rest (by simp only [List.length_cons] at bound; omega)
      else .fault .key
    else if c = ',' then
      match hr : skipBlanks rest with
      | [] => .fault .endOfValue
      | d :: more =>
        have inner : (d :: more).length ≤ rest.length := hr ▸ length_skipBlanks rest
        if d = '\x7d' then .fault .trailingComma
        else if d = '"' then
          .item more (by simp only [List.length_cons] at bound inner ⊢; omega)
        else .fault .key
    else .fault .commaOrBrace

mutual

def readValue (cs : List Char) : Reading cs Document :=
  match h : skipBlanks cs with
  | [] => (.absent, none)
  | c :: rest =>
    have bound : rest.length < cs.length := by
      have := h ▸ length_skipBlanks cs; simp only [List.length_cons] at this; omega
    if c = '"' then
      match readLabel rest with
      | (label, .error passed) => (.broken (some c) (label.faultOr passed) (some passed), none)
      | (label, .ok n) =>
        let value := match label with
          | .ok text => .text text
          | .error fault => .broken (some c) fault none
        (value, some ⟨rest.drop n, by simp only [List.length_drop]; omega⟩)
    else if c = '[' then
      match readItems true rest with
      | ((items, stop), left) =>
        (.list items stop, left.map fun ⟨left, fewer⟩ => ⟨left, Nat.lt_trans fewer bound⟩)
    else if c = '\x7b' then
      match readMembers true rest with
      | ((members, stop), left) =>
        (.object members stop, left.map fun ⟨left, fewer⟩ => ⟨left, Nat.lt_trans fewer bound⟩)
    else
      match readScalar c (c :: rest) with
      | .cut fault passed => (.broken (some c) fault (some passed), none)
      | .undecodable fault n =>
        (.broken (some c) fault none,
          some ⟨rest.drop (n - 1), by simp only [List.length_drop]; omega⟩)
      | .whole value n =>
        (value, some ⟨rest.drop (n - 1), by simp only [List.length_drop]; omega⟩)
termination_by 2 * cs.length
decreasing_by all_goals omega

def readItems (first : Bool) (cs : List Char) : Reading cs (List Document × Option Fault) :=
  match listTurn first cs with
  | .fault f => (([], some f), none)
  | .closed rest shorter => (([], none), some ⟨rest, shorter⟩)
  | .item start noLonger =>
    match readValue start with
    | (item, none) => (([item], none), none)
    | (item, some ⟨rest, fewer⟩) =>
      match readItems false rest with
      | ((items, stop), left) =>
        ((item :: items, stop), left.map fun ⟨left, less⟩ => ⟨left, by omega⟩)
termination_by 2 * cs.length + 1
decreasing_by all_goals omega

/-- The members of an object up to its brace. One that breaks off between name and value has the fault
as its value. -/
def readMembers (first : Bool) (cs : List Char) :
    Reading cs (List (Label × Document) × Option Fault) :=
  match objectTurn first cs with
  | .fault f => (([], some f), none)
  | .closed rest shorter => (([], none), some ⟨rest, shorter⟩)
  | .item name noLonger =>
    match readLabel name with
    | (label, .error passed) =>
      (([(.error (label.faultOr passed), .broken none passed (some passed))], none), none)
    | (label, .ok n) =>
      match hc : skipBlanks (name.drop n) with
      | [] => (([(label, .broken none .endOfObject (some .endOfObject))], none), none)
      | c :: rest =>
        have bound : rest.length < cs.length := by
          have := hc ▸ length_skipBlanks (name.drop n)
          simp only [List.length_cons, List.length_drop] at this
          omega
        if c = ':' then
          match readValue rest with
          | (value, none) => (([(label, value)], none), none)
          | (value, some ⟨rest, fewer⟩) =>
            match readMembers false rest with
            | ((members, stop), left) =>
              (((label, value) :: members, stop), left.map fun ⟨left, less⟩ => ⟨left, by omega⟩)
        else (([(label, .broken none .colon (some .colon))], none), none)
termination_by 2 * cs.length + 1
decreasing_by all_goals omega

end

def Document.ofString (text : String) : Document := (readValue text.toList).1

/-- Marks the lists and objects that are nested beyond `room` levels. -/
def Document.within : (room : Nat) → Document → Document
  | 0, .list items stop => .deep (.list items stop)
  | 0, .object members stop => .deep (.object members stop)
  | room + 1, .list items stop => .list (items.map (Document.within room)) stop
  | room + 1, .object members stop =>
    .object (members.map fun (label, value) => (label, Document.within room value)) stop
  | _, d => d

def maxNesting : Nat := 127

end TypeHints.Json
