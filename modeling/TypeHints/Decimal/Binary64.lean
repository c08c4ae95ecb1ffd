/-!
A 64-bit binary float, kept as `± mantissa · 2 ^ exponent`, and rounding to the nearest such value
with ties to the even mantissa.
-/
namespace TypeHints.Decimal

/-- `finite` keeps 53 bits of mantissa wherever the exponent can pay for them. -/
inductive Binary64 where
  | finite (negative : Bool) (mantissa : Nat) (exponent : Int)
  | infinite (negative : Bool)
  deriving DecidableEq, Repr, Inhabited

namespace Binary64

def minExponent : Int := -1074

def maxExponent : Int := 971

/-- Quotient rounded to the nearest natural number, a half to the even neighbour. -/
def roundHalfEven (num den : Nat) : Nat :=
  let q := num / den
  let twice := 2 * (num % den)
  if twice < den then q
  else if twice = den then q + q % 2
  else q + 1

def scaled (num den : Nat) (e : Int) : Nat × Nat :=
  if 0 ≤ e then (num, den * Nat.pow 2 e.toNat) else (num * Nat.pow 2 (-e).toNat, den)

/-- The exponent that leaves 53 bits before the point, no less than the least one. -/
def exponentOf (num den : Nat) : Int :=
  let low : Int := (num.log2 : Int) - den.log2 - 53
  let (n, d) := scaled num den low
  max minExponent (if n / d < Nat.pow 2 53 then low else low + 1)

def ofRatio (negative : Bool) (num den : Nat) : Binary64 :=
  if num = 0 then .finite negative 0 minExponent
  else
    let e := exponentOf num den
    let (n, d) := scaled num den e
    let m := roundHalfEven n d
    let (m, e) := if m < Nat.pow 2 53 then (m, e) else (Nat.pow 2 52, e + 1)
    if e ≤ maxExponent then .finite negative m e else .infinite negative

/-- The float nearest to `digits · 10 ^ exponent`; far outside the range no power is computed. -/
def ofDecimal (negative : Bool) (digits : Nat) (exponent : Int) : Binary64 :=
  let places : Int := (Nat.toDigits 10 digits).length
  if digits = 0 || exponent + places < -400 then .finite negative 0 minExponent
  else if 400 < exponent + places then .infinite negative
  else if 0 ≤ exponent then ofRatio negative (digits * Nat.pow 10 exponent.toNat) 1
  else ofRatio negative digits (Nat.pow 10 (-exponent).toNat)

/-- Magnitude as a ratio of natural numbers, for finite values. -/
def toRatio? : Binary64 → Option (Nat × Nat)
  | .finite _ m e => some (if 0 ≤ e then (m * Nat.pow 2 e.toNat, 1) else (m, Nat.pow 2 (-e).toNat))
  | .infinite _ => none

/-- Product and quotient, each rounded once; an infinite operand gives an infinite result. -/
def mul (x y : Binary64) : Binary64 :=
  match x.toRatio?, y.toRatio? with
  | some (a, b), some (c, d) => ofRatio false (a * c) (b * d)
  | _, _ => .infinite false

def div (x y : Binary64) : Binary64 :=
  match x.toRatio?, y.toRatio? with
  | some (a, b), some (c, d) => ofRatio false (a * d) (b * c)
  | _, _ => .infinite false

def neg : Binary64 → Binary64
  | .finite s m e => .finite (!s) m e
  | .infinite s => .infinite !s

def isNegative : Binary64 → Bool
  | .finite s _ _ => s
  | .infinite s => s

end Binary64

end TypeHints.Decimal
