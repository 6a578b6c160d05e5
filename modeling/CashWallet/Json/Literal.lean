import CashWallet.Json.Basic
import CashWallet.Number.FloatParse

/-!
# Number literals

A literal becomes a number in one pass over its digits. A coefficient takes digits as long as it
fits in 64 bits; digits before the point that no longer fit count into the exponent, digits behind
it are dropped. The coefficient is then rounded and multiplied or divided by a rounded power of ten.
-/

namespace CashWallet.Json

/-- A number as it stands in a document: digits of the integer part, digits of the fraction, and
the exponent with its sign. -/
structure Literal where
  negative : Bool
  whole : List Char
  fraction : Option (List Char)
  exponent : Option (Bool × List Char)
  deriving Repr

namespace Literal

/-- Take digits onto a coefficient while it fits; the second part is what is left. -/
def accumulate (acc : Nat) : List Char → Nat × List Char
  | [] => (acc, [])
  | c :: rest =>
    let next := 10 * acc + (c.toNat - 48)
    if next < UInt64.size then accumulate next rest else (acc, c :: rest)

/-- Multiply or divide by a power of ten, in steps that the format can hold. -/
def scaleBy : Nat → Binary64 → Int → Option Binary64
  | 0, _, _ => none
  | steps + 1, x, exponent =>
    if exponent.natAbs ≤ 308 then
      let power := Binary64.ofRatio false (Nat.pow 10 exponent.natAbs) 1
      if 0 ≤ exponent then
        match x.mul power with
        | .infinite _ => none
        | y => some y
      else some (x.div power)
    else if x = Binary64.zero false then some x
    else if 0 ≤ exponent then none
    else scaleBy steps (x.div (Binary64.ofRatio false (Nat.pow 10 308) 1)) (exponent + 308)

/-- Exponents are held in 32 bits. -/
def clampExponent (e : Int) : Int :=
  max Int32.minValue.toInt (min e Int32.maxValue.toInt)

/-- A coefficient and an exponent, both positive or zero parts of the literal. -/
def scaled (coefficient : Nat) (start : Int) (exponent : Option (Bool × List Char)) :
    Option Binary64 :=
  let x := Binary64.ofRatio false coefficient 1
  match exponent with
  | none => scaleBy 10 x start
  | some (minus, digits) =>
    let e := Binary64.digitsValue digits
    if e ≤ Int32.maxValue.toInt then
      scaleBy 10 x (clampExponent (if minus then start - e else start + e))
    else if coefficient = 0 || minus then some (Binary64.zero false)
    else none

/-- The floating-point number of a literal that is no integer of 64 bits. -/
def float? (literal : Literal) : Option Binary64 :=
  let whole := accumulate 0 literal.whole
  let fraction := literal.fraction.getD []
  let taken := accumulate whole.1 fraction
  let start : Int := whole.2.length - (fraction.length - taken.2.length : Nat)
  (scaled taken.1 start literal.exponent).map fun x =>
    if literal.negative then x.negate else x

/-- The number of a literal, unless it is out of range. -/
def number? (literal : Literal) : Option Number :=
  let whole := accumulate 0 literal.whole
  if literal.fraction.isNone && literal.exponent.isNone && whole.2.isEmpty then
    if !literal.negative then some (.natural (UInt64.ofNat whole.1))
    else if 0 < whole.1 ∧ whole.1 ≤ Int64.minValue.toInt.natAbs then some (.negative (UInt64.ofNat whole.1))
    else some (.float (Binary64.ofRatio true whole.1 1))
  else (literal.float?).map Number.float

end Literal

end CashWallet.Json
