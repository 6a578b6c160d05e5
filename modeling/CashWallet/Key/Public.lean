import CashWallet.Codec.Error
import CashWallet.Curve.Point
import CashWallet.Hash.Digest

/-!
# Public keys

A point of the curve with the form it is written in: 33 bytes with the parity of the ordinate, or
65 bytes with both coordinates.
-/

namespace CashWallet

structure PublicKey where
  point : Curve.Affine
  compressed : Bool
  deriving Repr

namespace PublicKey

/-- A tag that tells the parity of the ordinate, and the abscissa. -/
def toCompressed (key : PublicKey) : Bytes :=
  (if key.point.y % 2 = 1 then 3 else 2) :: Endian.toBig 32 key.point.x

/-- The tag 4 and both coordinates. -/
def toUncompressed (key : PublicKey) : Bytes :=
  4 :: Endian.toBig 32 key.point.x ++ Endian.toBig 32 key.point.y

/-- The key in its own form. -/
def toBytes (key : PublicKey) : Bytes :=
  if key.compressed then key.toCompressed else key.toUncompressed

def toHex (key : PublicKey) : String :=
  Hex.encode key.toBytes

/-- The point that a tag and the bytes behind it stand for. The tag 5 leaves the ordinate out and
means the even one. -/
def pointOf? (tag : UInt8) (body : Bytes) : Option Curve.Affine :=
  if body.length = 32 then
    if tag = 2 ∨ tag = 5 then Curve.Affine.ofX? (Endian.ofBig body) false
    else if tag = 3 then Curve.Affine.ofX? (Endian.ofBig body) true
    else none
  else if tag = 4 then
    let point : Curve.Affine := ⟨Endian.ofBig (body.take 32), Endian.ofBig (body.drop 32)⟩
    if point.isOnCurve then some point else none
  else none

/-- Read either form; the form read is the form in which the key is written again. -/
def ofBytes (bs : Bytes) : Except CodecError PublicKey :=
  if bs.length = 33 ∨ bs.length = 65 then
    match pointOf? (bs.headD 0) bs.tail with
    | some point => .ok ⟨point, bs.length == 33⟩
    | none => .error .publicKeyForm
  else .error (.publicKeyLength bs.length)

def ofHex (text : String) : Except CodecError PublicKey :=
  match Hex.decode text with
  | .ok bs => ofBytes bs
  | .error fault => .error (.hexText fault)

/-- What an address of this key commits to. -/
def hash160 (key : PublicKey) : Bytes :=
  Hash.hash160 key.toBytes

/-- Keys are equal when their written forms are. -/
instance : BEq PublicKey where
  beq a b := a.toBytes == b.toBytes

@[simp] theorem length_hash160 (key : PublicKey) : key.hash160.length = 20 :=
  Hash.length_hash160 _

@[simp] theorem length_toCompressed (key : PublicKey) : key.toCompressed.length = 33 := by
  simp [toCompressed]

@[simp] theorem length_toUncompressed (key : PublicKey) : key.toUncompressed.length = 65 := by
  simp [toUncompressed]

end PublicKey

end CashWallet
