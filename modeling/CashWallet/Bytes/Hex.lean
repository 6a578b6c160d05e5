import CashWallet.Bytes.Basic
import CashWallet.Text.Quoted

/-!
# Hexadecimal text

Two digits to a byte, lower case when written, either case when read. The length is checked before
the digits.
-/

namespace CashWallet.Hex

/-- Why a text is not hexadecimal. The position counts the bytes of the text. -/
inductive Fault where
  | oddLength
  | badDigit (byte : UInt8) (position : Nat)
  deriving DecidableEq, Repr

/-- A byte that is no digit is shown as the character with its number. -/
def Fault.message : Fault → String
  | .oddLength => "Odd number of digits"
  | .badDigit byte position =>
    "Invalid character " ++ Text.quotedChar (Char.ofNat byte.toNat) ++ " at position " ++
      toString position

def digit (n : UInt8) : UInt8 :=
  if n < 10 then 48 + n else 87 + n

def digitValue? (b : UInt8) : Option UInt8 :=
  if 48 ≤ b && b ≤ 57 then some (b - 48)
  else if 97 ≤ b && b ≤ 102 then some (b - 87)
  else if 65 ≤ b && b ≤ 70 then some (b - 55)
  else none

/-- The digits of some bytes, as ASCII codes. -/
def encodeBytes (bs : Bytes) : Bytes :=
  bs.flatMap fun (b : UInt8) => [digit (b >>> 4), digit (b &&& 15)]

def encode (bs : Bytes) : String :=
  String.ofList ((encodeBytes bs).map fun d => Char.ofNat d.toNat)

/-- Read pairs of digits; `position` is the place of the first one. -/
def decodePairs (position : Nat) : Bytes → Except Fault Bytes
  | [] => .ok []
  | [_] => .error .oddLength
  | hi :: lo :: rest =>
    match digitValue? hi, digitValue? lo with
    | none, _ => .error (.badDigit hi position)
    | some _, none => .error (.badDigit lo (position + 1))
    | some h, some l =>
      match decodePairs (position + 2) rest with
      | .ok bs => .ok ((h <<< 4 ||| l) :: bs)
      | .error e => .error e

def decodeBytes (text : Bytes) : Except Fault Bytes :=
  if text.length % 2 = 1 then .error .oddLength else decodePairs 0 text

def decode (text : String) : Except Fault Bytes :=
  decodeBytes (utf8Bytes text)

end CashWallet.Hex
