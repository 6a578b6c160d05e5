import CashWallet.Number.Shortest

/-!
# The text of a floating-point number

A number is written with its shortest digits. Where exponents are used and whether an integral
number keeps a decimal zero is a matter of the place it is written in.
-/

namespace CashWallet

/-- How shortest digits are laid out. The point stands behind `pointAt` digits; outside the range
`positionalFrom ≤ pointAt ≤ positionalTo` an exponent is used. -/
structure FloatLayout where
  positional : Int → Bool
  keepsDecimalZero : Bool

namespace FloatLayout

/-- Never an exponent, and integral numbers without a point. -/
def plain : FloatLayout where
  positional := fun _ => true
  keepsDecimalZero := false

/-- From `1e-5` up to `1e16` without an exponent, and always with a point. -/
def json : FloatLayout where
  positional := fun pointAt => -5 < pointAt && pointAt ≤ 16
  keepsDecimalZero := true

def digitChars (c : Nat) : List Char :=
  if c = 0 then ['0'] else Nat.toDigits 10 c

/-- Digits with the point behind the first `pointAt` of them. -/
def positionalChars (layout : FloatLayout) (digits : List Char) (pointAt : Int) : List Char :=
  if pointAt ≤ 0 then '0' :: '.' :: List.replicate (-pointAt).toNat '0' ++ digits
  else if (digits.length : Int) ≤ pointAt then
    digits ++ List.replicate (pointAt - digits.length).toNat '0' ++
      if layout.keepsDecimalZero then ['.', '0'] else []
  else digits.take pointAt.toNat ++ '.' :: digits.drop pointAt.toNat

/-- One digit before the point, and an exponent with its sign. -/
def exponentChars (digits : List Char) (pointAt : Int) : List Char :=
  let fraction := digits.drop 1
  let exponent := pointAt - 1
  digits.take 1 ++ (if fraction.isEmpty then [] else '.' :: fraction) ++
    'e' :: (if exponent < 0 then '-' else '+') :: Nat.toDigits 10 exponent.natAbs

def finiteChars (layout : FloatLayout) (m : Nat) (e : Int) : List Char :=
  if m = 0 then if layout.keepsDecimalZero then ['0', '.', '0'] else ['0']
  else
    let found := Shortest.decimal m e
    let digits := digitChars found.1
    let pointAt := found.2 + digits.length
    if layout.positional pointAt then layout.positionalChars digits pointAt
    else exponentChars digits pointAt

end FloatLayout

/-- The text of a number in a layout. -/
def Binary64.format (layout : FloatLayout) : Binary64 → String
  | finite negative m e =>
    String.ofList ((if negative then ['-'] else []) ++ layout.finiteChars m e)
  | infinite negative => if negative then "-inf" else "inf"
  | nan => "NaN"

end CashWallet
