import CashWallet.Key.Public
import CashWallet.Text.Whitespace

/-!
# Private keys and their import format

A scalar of the curve with two properties of its text form: whether the public key is written
compressed, and the version byte. The import format is base 58 over the version byte, the scalar,
a flag byte for compressed keys, and a checksum.
-/

namespace CashWallet

structure PrivateKey where
  scalar : Nat
  compressed : Bool := true
  wifPrefix : UInt8 := 0x80
  scalar_pos : 0 < scalar
  scalar_lt : scalar < Curve.order

namespace PrivateKey

/-- The version byte of keys for the main network. -/
def mainnetPrefix : UInt8 := 0x80

/-- The version byte of keys for the test network. -/
def testnetPrefix : UInt8 := 0xef

/-- A compressed key of the main network from 32 big-endian bytes. -/
def ofBytes (bs : Bytes) : Except CodecError PrivateKey :=
  if bs.length = 32 then
    let scalar := Endian.ofBig bs
    if h : 0 < scalar ∧ scalar < Curve.order then
      .ok { scalar, scalar_pos := h.1, scalar_lt := h.2 }
    else .error .privateKeyRange
  else .error (.privateKeyLength bs.length)

def ofHex (text : String) : Except CodecError PrivateKey :=
  match Hex.decode text with
  | .ok bs => ofBytes bs
  | .error fault => .error (.hexText fault)

def toBytes (key : PrivateKey) : Bytes :=
  Endian.toBig 32 key.scalar

/-- What is checksummed and written in base 58. -/
def payload (key : PrivateKey) : Bytes :=
  key.wifPrefix :: key.toBytes ++ if key.compressed then [1] else []

def toWif (key : PrivateKey) : String :=
  Base58.encode (key.payload ++ Hash.checksum key.payload)

/-- Whether a decoded import text has the flag byte, which its length and the byte itself tell. -/
def hasFlag (decoded : Bytes) : Except CodecError Bool :=
  if decoded.length = 38 then
    if decoded[33]? = some 1 then .ok true else .error .wifFlag
  else if decoded.length = 37 then .ok false
  else .error (.wifLength decoded.length)

/-- Read the import format, with blank space around it. Any version byte is kept. -/
def ofWif (text : String) : Except CodecError PrivateKey := do
  let decoded ← (Base58.decode (Text.trim text)).mapError CodecError.wifText
  let compressed ← hasFlag decoded
  let body := decoded.take (decoded.length - 4)
  if Hash.checksum body ≠ decoded.drop (decoded.length - 4) then
    throw .checksumMismatch
  let key ← ofBytes ((body.drop 1).take 32)
  return { key with compressed, wifPrefix := body.headD 0 }

/-- Keys are equal when scalar and form are; the version byte does not count. -/
instance : BEq PrivateKey where
  beq a b := a.scalar == b.scalar && a.compressed == b.compressed

/-- The description of a key, which leaves the scalar out. -/
def describe (key : PrivateKey) : String :=
  "PrivateKey \x7b compressed: " ++ (if key.compressed then "true" else "false") ++
    ", wif_prefix: " ++ toString key.wifPrefix.toNat ++ ", .. \x7d"

/-- The multiple of the generator by the scalar. -/
def publicKey (key : PrivateKey) : PublicKey where
  point := ((Curve.Jacobian.ofAffine Curve.generator).mul key.scalar).toAffine?.getD Curve.generator
  compressed := key.compressed

end PrivateKey

end CashWallet
