import CashWallet.Bytes.Basic
import CashWallet.Number.Digits
import CashWallet.Text.Quoted

/-!
# Base 58

A byte string is read as a big-endian number and written in 58 digits; each leading zero byte
becomes one leading `1`.
-/

namespace CashWallet.Base58

/-- The digit characters in order of their value, as ASCII codes. -/
def alphabet : List UInt8 :=
  [49, 50, 51, 52, 53, 54, 55, 56, 57,
   65, 66, 67, 68, 69, 70, 71, 72, 74, 75, 76, 77, 78, 80, 81, 82, 83, 84, 85, 86, 87, 88, 89, 90,
   97, 98, 99, 100, 101, 102, 103, 104, 105, 106, 107, 109, 110, 111, 112, 113, 114, 115, 116, 117,
   118, 119, 120, 121, 122]

/-- The digit for zero, which also stands for a leading zero byte. -/
def zeroDigit : UInt8 := 49

def digit (value : Nat) : UInt8 :=
  alphabet.getD value zeroDigit

def digitValue? (code : UInt8) : Option Nat :=
  alphabet.findIdx? (· == code)

/-- Why a text is not in base 58. The position counts the bytes of the text. -/
inductive Fault where
  | badDigit (code : UInt8) (position : Nat)
  | notAscii (position : Nat)
  deriving DecidableEq, Repr

def Fault.message : Fault → String
  | .badDigit code position =>
    "provided string contained invalid character " ++
      Text.quotedChar (Char.ofNat code.toNat) ++ " at byte " ++ toString position
  | .notAscii position =>
    "provided string contained non-ascii character starting at byte " ++ toString position

def encodeBytes (bs : Bytes) : Bytes :=
  let zeros := bs.takeWhile (· == 0)
  let number := Digits.toNat 256 (bs.reverse.map UInt8.toNat)
  zeros.map (fun _ => zeroDigit) ++ ((Digits.ofNat 58 number).map digit).reverse

def encode (bs : Bytes) : String :=
  String.ofList ((encodeBytes bs).map fun d => Char.ofNat d.toNat)

/-- The digit values of a text, first digit first. The first fault wins. -/
def digitValues (position : Nat) : Bytes → Except Fault (List Nat)
  | [] => .ok []
  | code :: rest =>
    if 127 < code then .error (.notAscii position)
    else
      match digitValue? code with
      | none => .error (.badDigit code position)
      | some value =>
        match digitValues (position + 1) rest with
        | .ok values => .ok (value :: values)
        | .error e => .error e

def ofDigitValues (values : List Nat) : Bytes :=
  let zeros := values.takeWhile (· == 0)
  let number := Digits.toNat 58 values.reverse
  zeros.map (fun _ => 0) ++ ((Digits.ofNat 256 number).map UInt8.ofNat).reverse

def decodeBytes (text : Bytes) : Except Fault Bytes :=
  (digitValues 0 text).map ofDigitValues

def decode (text : String) : Except Fault Bytes :=
  decodeBytes (utf8Bytes text)

end CashWallet.Base58
