import CashWallet.Bytes.Endian
import CashWallet.Codec.Error
import CashWallet.Curve.Point

/-!
# Signatures and their strict form

Two scalars, written as a DER sequence of two integers. Reading is strict: lengths and integers in
their shortest form, no negative integer and nothing behind the sequence, so that each signature
has one written form.
-/

namespace CashWallet

structure Signature where
  r : Nat
  s : Nat
  r_pos : 0 < r
  r_lt : r < Curve.order
  s_pos : 0 < s
  s_lt : s < Curve.order

namespace Signature

instance : DecidableEq Signature := fun a b =>
  if h : a.r = b.r ∧ a.s = b.s then
    isTrue (by cases a; cases b; simp_all)
  else
    isFalse (by rintro rfl; simp at h)

/-- Signatures with the larger of the two possible values of `s` are never valid. -/
def isLowS (sig : Signature) : Bool :=
  sig.s ≤ Curve.order / 2

/-- Both scalars must lie between zero and the order, ends excluded. -/
def ofScalars? (r s : Nat) : Option Signature :=
  if h : (0 < r ∧ r < Curve.order) ∧ (0 < s ∧ s < Curve.order) then
    some ⟨r, s, h.1.1, h.1.2, h.2.1, h.2.2⟩
  else none

/-- The shortest big-endian form with a clear sign bit. -/
def integerBody (n : Nat) : Bytes :=
  let digits := ((Digits.ofNat 256 n).map UInt8.ofNat).reverse
  if digits.headD 0x80 < 0x80 then digits else 0 :: digits

/-- A tagged value whose length fits in one byte. -/
def element (tag : UInt8) (body : Bytes) : Bytes :=
  tag :: UInt8.ofNat body.length :: body

def toDer (sig : Signature) : Bytes :=
  element 0x30 (element 2 (integerBody sig.r) ++ element 2 (integerBody sig.s))

def toDerHex (sig : Signature) : String :=
  Hex.encode sig.toDer

/-- A length in the shortest of its forms, and the bytes behind it. -/
def readLength? : Bytes → Option (Nat × Bytes)
  | [] => none
  | b :: rest =>
    if b < 0x80 then some (b.toNat, rest)
    else
      let width := b.toNat - 0x80
      let digits := rest.take width
      let n := Endian.ofBig digits
      if 1 ≤ width ∧ width ≤ 4 ∧ digits.length = width ∧ 0x80 ≤ n ∧
          digits.head? ≠ some 0 then
        some (n, rest.drop width)
      else none

/-- The body of an element with the given tag, and the bytes behind it. -/
def readElement? (tag : UInt8) : Bytes → Option (Bytes × Bytes)
  | [] => none
  | t :: rest =>
    if t = tag then
      match readLength? rest with
      | some (n, rest) =>
        if n ≤ rest.length then some (rest.take n, rest.drop n) else none
      | none => none
    else none

/-- A natural number in its shortest form. -/
def readInteger? : Bytes → Option Nat
  | [] => none
  | [b] => if b < 0x80 then some b.toNat else none
  | 0 :: b :: rest => if b < 0x80 then none else some (Endian.ofBig (b :: rest))
  | b :: rest => if b < 0x80 then some (Endian.ofBig (b :: rest)) else none

def ofDer? (bs : Bytes) : Option Signature := do
  let (body, trailing) ← readElement? 0x30 bs
  let (r, rest) ← readElement? 2 body
  let (s, inner) ← readElement? 2 rest
  if trailing.isEmpty && inner.isEmpty then
    ofScalars? (← readInteger? r) (← readInteger? s)
  else none

/-- A signature, or the one fault that there is in its place. -/
def orFault : Option Signature → Except CodecError Signature
  | some sig => .ok sig
  | none => .error .signatureForm

def ofDer (bs : Bytes) : Except CodecError Signature :=
  orFault (ofDer? bs)

end Signature

end CashWallet
