import CashWallet.Bytes.Basic

/-!
# Text as bytes

Texts are stored and sent in UTF-8. Bytes from outside may be malformed: `Utf8.decode` tells where
they are, and `utf8Lossy` puts the replacement character there.
-/

namespace CashWallet

namespace Utf8

/-- A character that has begun: how many bytes it still needs, the range of the next one, and the
bits so far. -/
structure Begun where
  missing : Nat
  lowest : UInt8
  highest : UInt8
  bits : Nat
  deriving DecidableEq

def replacement : Char := Char.ofNat 0xfffd

/-- What a byte means that does not continue a character. -/
def first (b : UInt8) : List (Option Char) × Option Begun :=
  if b < 0x80 then ([some (Char.ofNat b.toNat)], none)
  else if 0xc2 ≤ b && b ≤ 0xdf then ([], some ⟨1, 0x80, 0xbf, b.toNat - 0xc0⟩)
  else if b = 0xe0 then ([], some ⟨2, 0xa0, 0xbf, 0⟩)
  else if b = 0xed then ([], some ⟨2, 0x80, 0x9f, 0xd⟩)
  else if 0xe1 ≤ b && b ≤ 0xef then ([], some ⟨2, 0x80, 0xbf, b.toNat - 0xe0⟩)
  else if b = 0xf0 then ([], some ⟨3, 0x90, 0xbf, 0⟩)
  else if 0xf1 ≤ b && b ≤ 0xf3 then ([], some ⟨3, 0x80, 0xbf, b.toNat - 0xf0⟩)
  else if b = 0xf4 then ([], some ⟨3, 0x80, 0x8f, 4⟩)
  else ([none], none)

def next (begun : Option Begun) (b : UInt8) : List (Option Char) × Option Begun :=
  match begun with
  | none => first b
  | some p =>
    if p.lowest ≤ b && b ≤ p.highest then
      let bits := 64 * p.bits + b.toNat % 64
      if p.missing ≤ 1 then ([some (Char.ofNat bits)], none)
      else ([], some ⟨p.missing - 1, 0x80, 0xbf, bits⟩)
    else
      let (chars, begun) := first b
      (none :: chars, begun)

/-- The characters of some bytes, with `none` for each longest part that begins a character and does
not complete it. -/
def decode (begun : Option Begun) : Bytes → List (Option Char)
  | [] => if begun.isSome then [none] else []
  | b :: rest =>
    let (chars, begun) := next begun b
    chars ++ decode begun rest

end Utf8

/-- The text of some bytes, with replacement characters where they are malformed. -/
def utf8Lossy (bs : Bytes) : String :=
  String.ofList ((Utf8.decode none bs).map (·.getD Utf8.replacement))

end CashWallet
