import CashWallet.Number.Integer
import CashWallet.Text.Whitespace

/-!
# Decimal amounts

A decimal is an integer coefficient with a count of places behind the point. Its text has an
optional sign, digits with at most one point and underscores between them, and an optional exponent.
-/

namespace CashWallet

/-- The number `coefficient * 10 ^ -scale`. -/
structure Decimal where
  coefficient : Int
  scale : Int
  deriving DecidableEq, Repr

namespace Decimal

inductive Fault where
  | empty
  | integer (fault : Integer.Fault)
  | exponentRange (text : String)
  deriving DecidableEq, Repr

def Fault.message : Fault → String
  | .empty => "Failed to parse empty string"
  | .integer fault => fault.message
  | .exponentRange text => "Exponent overflow when parsing '" ++ text ++ "'"

/-- Digits and underscores; only a digit may come first. -/
def coefficientDigits : List Char → Except Fault Nat
  | [] => .error (.integer .empty)
  | '_' :: _ => .error (.integer .badDigit)
  | cs =>
    cs.foldlM (fun acc c =>
      if c = '_' then .ok acc
      else
        match Integer.digitValue? c with
        | some d => .ok (10 * acc + d)
        | none => .error (.integer .badDigit)) 0

/-- Digits behind an optional sign, of which there is at most one. -/
def coefficientOf : List Char → Except Fault Int
  | '-' :: rest => (coefficientDigits rest).map fun n => -(n : Int)
  | '+' :: rest => (coefficientDigits rest).map Int.ofNat
  | cs => (coefficientDigits cs).map Int.ofNat

def isExponentMark (c : Char) : Bool :=
  c == 'e' || c == 'E'

/-- The characters around the first point, the point left out, and how many places follow it. -/
def splitPoint (base : List Char) : List Char × Nat :=
  let whole := base.takeWhile (· != '.')
  let fraction := (base.dropWhile (· != '.')).drop 1
  (whole ++ fraction, (fraction.filter (· != '_')).length)

/-- The exponent behind the first mark; zero without one. -/
def exponentOf (cs : List Char) : Except Fault Int :=
  match cs.dropWhile (! isExponentMark ·) with
  | [] => .ok 0
  | _ :: digits => (Integer.signed (1 <<< 127 - 1) digits).mapError Fault.integer

/-- Read a text without blank space around it. -/
def parse (text : String) : Except Fault Decimal := do
  let cs := text.toList
  let exponent ← exponentOf cs
  let base := cs.takeWhile (! isExponentMark ·)
  if base.isEmpty then throw .empty
  let (digits, places) := splitPoint base
  let scale : Int := places - exponent
  if scale < Int64.minValue.toInt ∨ Int64.maxValue.toInt < scale then throw (.exponentRange text)
  let coefficient ← coefficientOf digits
  return { coefficient, scale }

/-- The integer part of `d * 10 ^ places` for a `d` that is not negative, unless it exceeds `limit`.
A power of ten is taken only where it can matter. Scaling by the power in any case gives the same
wherever there is memory for the power: for huge exponents the memory is left out of account. -/
def floorScaled? (d : Decimal) (places : Nat) (limit : Nat) : Option Nat :=
  let n := d.coefficient.toNat
  let shift : Int := places - d.scale
  if n = 0 then some 0
  else if 0 ≤ shift then
    if limit.log2 < shift then none
    else
      let product := n * Nat.pow 10 shift.toNat
      if product ≤ limit then some product else none
  else if (n.log2 : Int) < -shift then some 0
  else
    let quotient := n / Nat.pow 10 (-shift).toNat
    if quotient ≤ limit then some quotient else none

end Decimal

end CashWallet
