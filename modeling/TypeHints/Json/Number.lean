import TypeHints.Json.Document

/-!
# JSON numbers

An integer of 64 bits, signed or unsigned, is exact; any other number is a float. A float is made of
the leading digits that fit 64 bits and a power of ten, rounded once for the digits and once for
each scaling step, so it may miss the nearest float by a unit.
-/
namespace TypeHints.Json
open Decimal

/-- The digits of a number that fit 64 bits, with the power of ten that makes up for the others. -/
structure Significand where
  digits : Nat := 0
  exponent : Int := 0
  deriving Repr

def Significand.fits (s : Significand) (digit : Nat) : Bool := s.digits * 10 + digit < Nat.pow 2 64

def digitValue (c : Char) : Nat := c.toNat - 48

/-- Digits before the point: from the first that does not fit on, each adds a power of ten. -/
def Significand.takeWhole (s : Significand) : List Char → Significand
  | [] => s
  | c :: rest =>
    if s.fits (digitValue c) then
      Significand.takeWhole { s with digits := s.digits * 10 + digitValue c } rest
    else { s with exponent := s.exponent + (rest.length + 1) }

/-- Digits after the point: from the first that does not fit on, none counts. -/
def Significand.takeFraction (s : Significand) : List Char → Significand
  | [] => s
  | c :: rest =>
    if s.fits (digitValue c) then
      Significand.takeFraction ⟨s.digits * 10 + digitValue c, s.exponent - 1⟩ rest
    else s

def powerOfTen (n : Nat) : Binary64 := Binary64.ofDecimal false 1 n

/-- Scales by a power of ten, in steps that a float can hold. -/
def scale : (fuel : Nat) → Binary64 → Int → Except Fault Binary64
  | 0, x, _ => .ok x
  | fuel + 1, x, exponent =>
    if exponent.natAbs ≤ 308 then
      if 0 ≤ exponent then
        match x.mul (powerOfTen exponent.natAbs) with
        | .infinite _ => .error .numberRange
        | y => .ok y
      else .ok (x.div (powerOfTen exponent.natAbs))
    else if x = .finite false 0 Binary64.minExponent then .ok x
    else if 0 ≤ exponent then .error .numberRange
    else scale fuel (x.div (powerOfTen 308)) (exponent + 308)

def Significand.toFloat (s : Significand) (negative : Bool) : Except Fault Binary64 :=
  (scale 5 (Binary64.ofRatio false s.digits 1) s.exponent).map fun x =>
    if negative then x.neg else x

/-- A string, a word or a number at the start of a text. -/
inductive Scalar where
  /-- A value and how many characters it takes. -/
  | whole (d : Document) (taken : Nat)
  /-- Nothing can decode it, but the text goes on after it. -/
  | undecodable (fault : Fault) (taken : Nat)
  /-- The text breaks off. -/
  | cut (fault passed : Fault)

def Scalar.ofFloat (x : Except Fault Binary64) (taken : Nat) : Scalar :=
  match x with
  | .ok x => .whole (.float x) taken
  | .error fault => .undecodable fault taken

def wholeNumber (negative : Bool) (whole : List Char) (taken : Nat) : Scalar :=
  let value := whole.foldl (fun total c => total * 10 + digitValue c) 0
  if !negative && value < Nat.pow 2 64 then .whole (.integer value) taken
  else if negative && 0 < value && value ≤ Nat.pow 2 63 then .whole (.integer (-value)) taken
  else .ofFloat ((({} : Significand).takeWhole whole).toFloat negative) taken

/-- The written exponent; one that no 32 bits can hold is taken for an endless one. -/
def endlessExponent : Nat := Nat.pow 2 31

def fractionalNumber (negative : Bool) (whole fraction : List Char) (down : Bool)
    (exponent : List Char) : Except Fault Binary64 :=
  let s := (({} : Significand).takeWhole whole).takeFraction fraction
  let power := exponent.foldl (fun total c => total * 10 + digitValue c) 0
  if endlessExponent ≤ power then
    if s.digits ≠ 0 && !down then .error .numberRange
    else .ok (.finite negative 0 Binary64.minExponent)
  else
    let power : Int := if down then -(power : Int) else power
    { s with exponent := s.exponent + power }.toFloat negative

/-- A fault of a number: at the end of the text something is missing, elsewhere something is wrong. -/
def cutNumber (rest : List Char) : Scalar :=
  .cut (if rest.isEmpty then .endOfValue else .number) .number

def readNumber (cs : List Char) : Scalar :=
  let negative := cs.head? = some '-'
  let body := if negative then cs.tail else cs
  let whole := if body.head? = some '0' then ['0'] else body.takeWhile Char.isDigit
  let rest := body.drop whole.length
  let taken := (if negative then 1 else 0) + whole.length
  if whole.isEmpty then cutNumber body
  else if body.head? = some '0' && (rest.head?.any Char.isDigit) then cutNumber rest
  else
    let pointed := rest.head? = some '.'
    let fraction := if pointed then rest.tail.takeWhile Char.isDigit else []
    let rest := if pointed then rest.drop (fraction.length + 1) else rest
    let taken := if pointed then taken + fraction.length + 1 else taken
    if pointed && fraction.isEmpty then cutNumber rest
    else if rest.head? = some 'e' || rest.head? = some 'E' then
      let signed := rest.tail.head? = some '+' || rest.tail.head? = some '-'
      let down := rest.tail.head? = some '-'
      let rest := if signed then rest.drop 2 else rest.drop 1
      let exponent := rest.takeWhile Char.isDigit
      if exponent.isEmpty then cutNumber rest
      else
        .ofFloat (fractionalNumber negative whole fraction down exponent)
          (taken + (if signed then 2 else 1) + exponent.length)
    else if pointed then .ofFloat (fractionalNumber negative whole fraction false []) taken
    else wholeNumber negative whole taken

end TypeHints.Json
