import TypeHints.Json.Decode

/-!
# The grammar of JSON

Which texts are a JSON text of a document. The grammar knows no reader: it says what blanks,
strings, numbers, lists and objects look like, and only the value of a string or a number is left to
the functions that compute it. The grammar lets half a surrogate pair through, which no string can
hold; it is a fault in the document then.
-/
namespace TypeHints.Json

/-! ### Strings -/

def IsBlanks (cs : List Char) : Prop := ∀ c ∈ cs, isJsonBlank c = true

theorem isBlanks_nil : IsBlanks [] := List.forall_mem_nil _

def simpleEscapes : List Char := ['"', '\\', '/', 'b', 'f', 'n', 'r', 't']

inductive IsContent : List Char → Prop
  | nil : IsContent []
  | plain {c : Char} {cs : List Char} (visible : 0x20 ≤ c.toNat) (noQuote : c ≠ '"')
      (noBackslash : c ≠ '\\') (more : IsContent cs) : IsContent (c :: cs)
  | escape {c : Char} {cs : List Char} (known : c ∈ simpleEscapes) (more : IsContent cs) :
      IsContent ('\\' :: c :: cs)
  | unicode {digits cs : List Char} (four : digits.length = 4)
      (hex : ∀ c ∈ digits, (hexDigit? c).isSome = true) (more : IsContent cs) :
      IsContent ('\\' :: 'u' :: (digits ++ cs))

def surrogateFaults : List Fault := [.loneSurrogate, .unfinishedSurrogate]

def labelOf (content : List Char) : Label := (readString (content ++ ['"'])).map String.ofList

/-- The name can be decoded: it holds no half surrogate pair. -/
def Label.Decodes (label : Label) : Prop := ∃ name, label = .ok name

def Label.document : Label → Document
  | .ok text => .text text
  | .error fault => .broken (some '"') fault none

/-! ### Numbers -/

def IsDigits (cs : List Char) : Prop := cs ≠ [] ∧ ∀ c ∈ cs, c.isDigit = true

structure Exponent where
  letter : Char
  sign : Option Char
  digits : List Char

structure Numeral where
  negative : Bool
  whole : List Char
  fraction : Option (List Char)
  exponent : Option Exponent

def Exponent.text (e : Exponent) : List Char := e.letter :: (e.sign.toList ++ e.digits)

structure Exponent.IsValid (e : Exponent) : Prop where
  letter : e.letter = 'e' ∨ e.letter = 'E'
  sign : ∀ c ∈ e.sign, c = '+' ∨ c = '-'
  digits : IsDigits e.digits

namespace Numeral

def fractionText : Option (List Char) → List Char
  | some digits => '.' :: digits
  | none => []

def exponentText : Option Exponent → List Char
  | some e => e.text
  | none => []

def text (n : Numeral) : List Char :=
  (if n.negative then ['-'] else []) ++ (n.whole ++ (fractionText n.fraction ++ exponentText n.exponent))

/-- No digit stands behind a zero in front. -/
structure IsValid (n : Numeral) : Prop where
  digits : IsDigits n.whole
  noZero : n.whole.head? = some '0' → n.whole = ['0']
  fraction : ∀ digits ∈ n.fraction, IsDigits digits
  exponent : ∀ e ∈ n.exponent, e.IsValid

def scalar (n : Numeral) : Scalar :=
  match n.exponent, n.fraction with
  | some e, fraction =>
    .ofFloat (fractionalNumber n.negative n.whole (fraction.getD []) (e.sign = some '-') e.digits)
      n.text.length
  | none, some digits => .ofFloat (fractionalNumber n.negative n.whole digits false []) n.text.length
  | none, none => wholeNumber n.negative n.whole n.text.length

/-- A number out of every range is a fault in the document. -/
def document (n : Numeral) : Document :=
  match n.scalar with
  | .whole d _ => d
  | .undecodable fault _ => .broken n.text.head? fault none
  | .cut fault passed => .broken n.text.head? fault (some passed)

end Numeral

/-! ### Values -/

mutual

inductive TextOf : Document → List Char → Prop
  | null : TextOf .null "null".toList
  | bool (value : Bool) : TextOf (.bool value) (if value then "true" else "false").toList
  | number {n : Numeral} (valid : n.IsValid) : TextOf n.document n.text
  | text {content : List Char} (valid : IsContent content) :
      TextOf (labelOf content).document ('"' :: (content ++ ['"']))
  | noItems {blanks : List Char} (blank : IsBlanks blanks) :
      TextOf (.list [] none) ('[' :: (blanks ++ [']']))
  | list {items : List Document} {cs : List Char} (given : ItemsOf items cs) :
      TextOf (.list items none) ('[' :: (cs ++ [']']))
  | noMembers {blanks : List Char} (blank : IsBlanks blanks) :
      TextOf (.object [] none) ('\x7b' :: (blanks ++ ['\x7d']))
  | object {members : List (Label × Document)} {cs : List Char} (given : MembersOf members cs) :
      TextOf (.object members none) ('\x7b' :: (cs ++ ['\x7d']))

inductive PaddedOf : Document → List Char → Prop
  | padded {d : Document} {before cs after : List Char} (blank : IsBlanks before) (text : TextOf d cs)
      (blank' : IsBlanks after) : PaddedOf d (before ++ (cs ++ after))

inductive ItemsOf : List Document → List Char → Prop
  | last {d : Document} {cs : List Char} (item : PaddedOf d cs) : ItemsOf [d] cs
  | cons {d : Document} {cs : List Char} {items : List Document} {more : List Char}
      (item : PaddedOf d cs) (others : ItemsOf items more) : ItemsOf (d :: items) (cs ++ ',' :: more)

inductive MemberOf : Label × Document → List Char → Prop
  | member {content : List Char} {d : Document} {before named cs : List Char}
      (blank : IsBlanks before) (name : IsContent content) (blank' : IsBlanks named)
      (value : PaddedOf d cs) :
      MemberOf (labelOf content, d) (before ++ '"' :: (content ++ '"' :: (named ++ ':' :: cs)))

inductive MembersOf : List (Label × Document) → List Char → Prop
  | last {m : Label × Document} {cs : List Char} (member : MemberOf m cs) : MembersOf [m] cs
  | cons {m : Label × Document} {cs : List Char} {members : List (Label × Document)}
      {more : List Char} (member : MemberOf m cs) (others : MembersOf members more) :
      MembersOf (m :: members) (cs ++ ',' :: more)

end

/-- The whole text is a JSON text of the document. -/
def IsJson (text : String) (d : Document) : Prop := PaddedOf d text.toList

end TypeHints.Json
