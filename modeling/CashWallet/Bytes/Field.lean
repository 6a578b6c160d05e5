import CashWallet.Bytes.Read

/-!
# Fields of wire data

The values that wire data is made of, each with its written form, and the kinds of field, each
with its read. A written field is read back by the kind it is of.
-/

namespace CashWallet

/-- One value on the wire. -/
inductive Field where
  | u8 (value : UInt8)
  | u16 (value : UInt16)
  | u32 (value : UInt32)
  | u64 (value : UInt64)
  | compactSize (value : UInt64)
  | bytes (value : Bytes)
  | varBytes (value : Bytes)
  deriving DecidableEq, Repr

/-- What a reader must know to take one value off the wire. -/
inductive FieldKind where
  | u8 | u16 | u32 | u64 | compactSize | varBytes
  | bytes (count : Nat)
  deriving DecidableEq, Repr

namespace Field

def encodeVarBytes (bs : Bytes) : Bytes :=
  CompactSize.encode (UInt64.ofNat bs.length) ++ bs

def encode : Field → Bytes
  | u8 v => [v]
  | u16 v => Endian.toLittle 2 v.toNat
  | u32 v => Endian.toLittle 4 v.toNat
  | u64 v => Endian.toLittle 8 v.toNat
  | compactSize v => CompactSize.encode v
  | bytes bs => bs
  | varBytes bs => encodeVarBytes bs

/-- The written form of some fields, one after the other. -/
def encodeAll (fields : List Field) : Bytes :=
  fields.flatMap encode

def kind : Field → FieldKind
  | u8 _ => .u8
  | u16 _ => .u16
  | u32 _ => .u32
  | u64 _ => .u64
  | compactSize _ => .compactSize
  | bytes bs => .bytes bs.length
  | varBytes _ => .varBytes

end Field

def FieldKind.read : FieldKind → Read CodecError Field
  | .u8 => Field.u8 <$> Read.u8
  | .u16 => Field.u16 <$> Read.u16
  | .u32 => Field.u32 <$> Read.u32
  | .u64 => Field.u64 <$> Read.u64
  | .compactSize => Field.compactSize <$> Read.compactSize
  | .varBytes => Field.varBytes <$> Read.varBytes
  | .bytes n => Field.bytes <$> Read.bytes n

/-- Read one field after the other, going on after a failure. Each entry holds what came of one
read and how many bytes were then left. -/
def FieldKind.readAll : List FieldKind → Bytes → List (Except CodecError Field × Nat)
  | [], _ => []
  | kind :: kinds, unread =>
    let step := kind.read unread
    (step.1, step.2.length) :: readAll kinds step.2

end CashWallet
