/-!
# Binary floating-point numbers

The numbers of the 64-bit format as exact dyadic fractions, and rounding of any fraction to the
nearest of them, ties to the even mantissa.
-/

namespace CashWallet

/-- A finite number is `mantissa * 2 ^ exponent`, the mantissa having at most 53 bits. -/
inductive Binary64 where
  | finite (negative : Bool) (mantissa : Nat) (exponent : Int)
  | infinite (negative : Bool)
  | nan
  deriving DecidableEq, Repr

namespace Binary64

/-- The exponent of the smallest numbers. -/
def minExponent : Int := -1074

/-- The exponent of the largest numbers. -/
def maxExponent : Int := 971

/-- The least mantissa that uses all 53 bits. -/
def fullMantissa : Nat := 1 <<< 52

def zero (negative : Bool) : Binary64 := .finite negative 0 minExponent

/-- The fraction `num / den` scaled by `2 ^ -exponent`. -/
def scaleDown (num den : Nat) (exponent : Int) : Nat × Nat :=
  if 0 ≤ exponent then (num, den <<< exponent.toNat) else (num <<< (-exponent).toNat, den)

/-- The nearest integer to a fraction, ties to even. -/
def roundHalfEven (num den : Nat) : Nat :=
  let q := num / den
  let twice := 2 * (num % den)
  if twice < den then q
  else if den < twice then q + 1
  else q + q % 2

/-- The exponent that leaves 53 bits before the point, where the format has such an exponent. -/
def exponentFor (num den : Nat) : Int :=
  let e := max ((num.log2 : Int) - den.log2 - 53) minExponent
  let scaled := scaleDown num den e
  if scaled.2 <<< 53 ≤ scaled.1 then e + 1 else e

/-- The number nearest to `num / den`. -/
def ofRatio (negative : Bool) (num den : Nat) : Binary64 :=
  if num = 0 then zero negative
  else
    let e := exponentFor num den
    let scaled := scaleDown num den e
    let m := roundHalfEven scaled.1 scaled.2
    let rounded : Nat × Int := if m = 2 * fullMantissa then (fullMantissa, e + 1) else (m, e)
    if maxExponent < rounded.2 then .infinite negative
    else if rounded.1 = 0 then zero negative
    else .finite negative rounded.1 rounded.2

/-- The number nearest to `coefficient * 10 ^ exponent`. Exponents far outside the range of the
format are settled before any power is taken. -/
def ofDecimal (negative : Bool) (coefficient : Nat) (exponent : Int) : Binary64 :=
  if coefficient = 0 then zero negative
  else if 400 < exponent then .infinite negative
  else if coefficient.log2 / 3 + exponent < -400 then zero negative
  else if 0 ≤ exponent then ofRatio negative (coefficient * Nat.pow 10 exponent.toNat) 1
  else ofRatio negative coefficient (Nat.pow 10 (-exponent).toNat)

def negate : Binary64 → Binary64
  | finite s m e => .finite (!s) m e
  | infinite s => .infinite (!s)
  | nan => .nan

/-- The absolute value of a finite number as a fraction. -/
def toRatio (m : Nat) (e : Int) : Nat × Nat :=
  if 0 ≤ e then (m <<< e.toNat, 1) else (m, 1 <<< (-e).toNat)

/-- The rounded product of two numbers that are zero or positive. -/
def mul : Binary64 → Binary64 → Binary64
  | finite _ m e, finite _ m' e' =>
    let r := toRatio (m * m') (e + e')
    ofRatio false r.1 r.2
  | nan, _ => .nan
  | _, nan => .nan
  | _, _ => .infinite false

/-- The rounded quotient of two numbers that are zero or positive, the second a finite one other
than zero. -/
def div : Binary64 → Binary64 → Binary64
  | finite _ m e, finite _ m' e' =>
    let r := toRatio m e
    let r' := toRatio m' e'
    ofRatio false (r.1 * r'.2) (r.2 * r'.1)
  | infinite s, _ => .infinite s
  | _, _ => .nan

end Binary64

end CashWallet
