import TypeHints.Decimal.Binary64

/-!
# Shortest decimals

The fewest decimal digits that round back to a float, the nearest such decimal, and the two layouts
in which the library writes them: always positional (`Binary64.positional`), and with an exponent
outside a range (`Binary64.scientific`).
-/
namespace TypeHints.Decimal

structure Digits where
  digits : Nat
  exponent : Int
  deriving DecidableEq, Repr

/-- Which of two equally near decimals is written. -/
inductive Tie where
  | larger
  | even
  deriving DecidableEq, Repr

/-- Whether the smaller of two neighbours, which is given, is the one. -/
def Tie.down (lower : Nat) : Tie → Bool
  | .larger => false
  | .even => lower % 2 = 0

/-- A closed or open interval between two ratios over one denominator. -/
structure Interval where
  low : Nat
  value : Nat
  high : Nat
  den : Nat
  closed : Bool

namespace Interval

/-- All reals that round to `m · 2 ^ e`; below a power of two the gap is half as wide. -/
def around (m : Nat) (e : Int) : Interval :=
  let low := if m = Nat.pow 2 52 && e > Binary64.minExponent then 4 * m - 1 else 4 * m - 2
  let (scale, den) := if 0 ≤ e then (Nat.pow 2 e.toNat, 4) else (1, 4 * Nat.pow 2 (-e).toNat)
  ⟨low * scale, 4 * m * scale, (4 * m + 2) * scale, den, m % 2 = 0⟩

def holds (i : Interval) (num den' : Nat) : Bool :=
  let x := num * i.den
  if i.closed then i.low * den' ≤ x && x ≤ i.high * den' else i.low * den' < x && x < i.high * den'

/-- The least `k` with value below `10 ^ k`, searched downwards from `fuel - 400`. -/
def magnitude (i : Interval) : Int :=
  let below (k : Int) : Bool :=
    if 0 ≤ k then i.value < i.den * Nat.pow 10 k.toNat else i.value * Nat.pow 10 (-k).toNat < i.den
  let rec down : Nat → Int → Int
    | 0, k => k
    | fuel + 1, k => if below (k - 1) then down fuel (k - 1) else k
  down 700 310

/-- The decimal of at most `count` digits nearest the value, if one lies in the interval; of two
equally near ones the one that `tie` tells. -/
def nearest? (i : Interval) (tie : Tie) (magnitude : Int) (count : Nat) : Option Digits :=
  let unit := magnitude - count
  let (num, den') := if 0 ≤ unit then (Nat.pow 10 unit.toNat, 1) else (1, Nat.pow 10 (-unit).toNat)
  let lower := i.value * den' / (i.den * num)
  let fits (d : Nat) : Bool := i.holds (d * num) den'
  let gapDown := i.value * den' - lower * num * i.den
  let gapUp := (lower + 1) * num * i.den - i.value * den'
  match fits lower, fits (lower + 1) with
  | true, true =>
    let down := if gapDown = gapUp then tie.down lower else gapDown < gapUp
    some ⟨if down then lower else lower + 1, unit⟩
  | true, false => some ⟨lower, unit⟩
  | false, true => some ⟨lower + 1, unit⟩
  | false, false => none

end Interval

def Digits.strip (d : Digits) : Digits :=
  go d.digits d.exponent (d.digits.log2 + 1)
where
  go (digits : Nat) (exponent : Int) : Nat → Digits
    | 0 => ⟨digits, exponent⟩
    | fuel + 1 =>
      if digits ≠ 0 && digits % 10 = 0 then go (digits / 10) (exponent + 1) fuel
      else ⟨digits, exponent⟩

/-- The shortest decimal that reads back as `m · 2 ^ e`. -/
def shortest (tie : Tie) (m : Nat) (e : Int) : Digits :=
  if m = 0 then ⟨0, 0⟩
  else
    let interval := Interval.around m e
    let magnitude := interval.magnitude
    match (List.range' 1 17).findSome? (interval.nearest? tie magnitude) with
    | some d => d.strip
    | none => ⟨0, 0⟩

namespace Binary64

def sign (x : Binary64) : String := if x.isNegative then "-" else ""

def zeros (n : Nat) : String := String.ofList (List.replicate n '0')

/-- All digits are written out, without an exponent and without a fraction of zero. A tie goes to the
larger decimal. -/
def positional (x : Binary64) : String :=
  match x with
  | .infinite _ => x.sign ++ "inf"
  | .finite _ m e =>
    let d := shortest .larger m e
    let digits := toString d.digits
    let point : Int := digits.length + d.exponent
    if 0 ≤ d.exponent then x.sign ++ digits ++ zeros d.exponent.toNat
    else if 0 < point then
      x.sign ++ (digits.take point.toNat).toString ++ "." ++ (digits.drop point.toNat).toString
    else x.sign ++ "0." ++ zeros (-point).toNat ++ digits

/-- Positional between `1e-5` and `1e16`, always with a fraction; otherwise with an exponent and its
sign. A tie goes to the even decimal. -/
def scientific (x : Binary64) : String :=
  match x with
  | .infinite _ => x.sign ++ "inf"
  | .finite _ m e =>
    let d := shortest .even m e
    let digits := toString d.digits
    let point : Int := digits.length + d.exponent
    if 0 ≤ d.exponent && point ≤ 16 then x.sign ++ digits ++ zeros d.exponent.toNat ++ ".0"
    else if 0 < point && point ≤ 16 then
      x.sign ++ (digits.take point.toNat).toString ++ "." ++ (digits.drop point.toNat).toString
    else if -5 < point && point ≤ 0 then x.sign ++ "0." ++ zeros (-point).toNat ++ digits
    else
      let fraction := (digits.drop 1).toString
      let mantissa := (digits.take 1).toString ++ (if fraction.isEmpty then "" else "." ++ fraction)
      x.sign ++ mantissa ++ (if 0 < point then "e+" else "e") ++ toString (point - 1)

end Binary64

end TypeHints.Decimal
