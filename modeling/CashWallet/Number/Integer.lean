/-!
# Integers written in decimal

Digits behind an optional sign, read from left to right. The first character that is no digit, or
the first digit that leads out of range, decides the fault.
-/

namespace CashWallet.Integer

inductive Fault where
  | empty
  | badDigit
  | tooLarge
  | tooSmall
  deriving DecidableEq, Repr

def Fault.message : Fault → String
  | .empty => "cannot parse integer from empty string"
  | .badDigit => "invalid digit found in string"
  | .tooLarge => "number too large to fit in target type"
  | .tooSmall => "number too small to fit in target type"

def digitValue? (c : Char) : Option Nat :=
  if c.isDigit then some (c.toNat - 48) else none

/-- Read digits onto a number that must not exceed `limit`. -/
def digitsWithin (limit : Nat) (overflow : Fault) (acc : Nat) : List Char → Except Fault Nat
  | [] => .ok acc
  | c :: rest =>
    match digitValue? c with
    | none => .error .badDigit
    | some d =>
      if 10 * acc + d ≤ limit then digitsWithin limit overflow (10 * acc + d) rest
      else .error overflow

/-- Digits behind an optional plus sign, for a number of at most `limit`. -/
def unsigned (limit : Nat) : List Char → Except Fault Nat
  | [] => .error .empty
  | ['+'] => .error .badDigit
  | '+' :: rest => digitsWithin limit .tooLarge 0 rest
  | cs => digitsWithin limit .tooLarge 0 cs

/-- Digits behind an optional sign, for a number from `-limit - 1` to `limit`. -/
def signed (limit : Nat) : List Char → Except Fault Int
  | ['-'] => .error .badDigit
  | '-' :: rest => (digitsWithin (limit + 1) .tooSmall 0 rest).map fun n => -(n : Int)
  | cs => (unsigned limit cs).map Int.ofNat

/-- An unsigned number of 64 bits. -/
def u64? (text : String) : Option UInt64 :=
  match unsigned (UInt64.size - 1) text.toList with
  | .ok n => some (UInt64.ofNat n)
  | .error _ => none

end CashWallet.Integer
