import CashWallet.Bytes.CompactSize
import CashWallet.Codec.Error

/-!
# Reading wire data

A read takes bytes off the front of what is unread. A single read that fails takes nothing; a
compound one keeps what its earlier parts took.
-/

namespace CashWallet

/-- What a read gives, and the bytes it leaves. -/
def Read (ε α : Type) := Bytes → Except ε α × Bytes

namespace Read

def fail (e : ε) : Read ε α := fun unread => (.error e, unread)

protected def bind (r : Read ε α) (f : α → Read ε β) : Read ε β := fun unread =>
  match r unread with
  | (.ok a, rest) => f a rest
  | (.error e, rest) => (.error e, rest)

instance : Monad (Read ε) where
  pure a := fun unread => (.ok a, unread)
  bind := Read.bind

@[simp] theorem pure_run (a : α) (unread : Bytes) :
    (pure a : Read ε α) unread = (.ok a, unread) := rfl

theorem bind_run (r : Read ε α) (f : α → Read ε β) (unread : Bytes) :
    (r >>= f) unread =
      match r unread with
      | (.ok a, rest) => f a rest
      | (.error e, rest) => (.error e, rest) := rfl

/-- Take exactly `n` bytes. -/
def bytes (n : Nat) : Read CodecError Bytes := fun unread =>
  let taken := unread.take n
  if taken.length < n then (.error (.endOfData n unread.length), unread)
  else (.ok taken, unread.drop n)

/-- A little-endian number of a fixed width. -/
def little (width : Nat) : Read CodecError Nat :=
  (fun bs => Endian.ofLittle bs) <$> bytes width

def u8 : Read CodecError UInt8 := UInt8.ofNat <$> little 1

def u16 : Read CodecError UInt16 := UInt16.ofNat <$> little 2

def u32 : Read CodecError UInt32 := UInt32.ofNat <$> little 4

def u64 : Read CodecError UInt64 := UInt64.ofNat <$> little 8

/-- A compact-size integer in any of its four forms, the shortest or not. -/
def compactSize : Read CodecError UInt64 := do
  let marker ← u8
  if marker = 0xff then u64
  else if marker = 0xfe then UInt32.toUInt64 <$> u32
  else if marker = 0xfd then UInt16.toUInt64 <$> u16
  else pure marker.toUInt64

/-- Bytes behind their count. -/
def varBytes : Read CodecError Bytes := do
  let count ← compactSize
  bytes count.toNat

/-- The same read a number of times, in order. -/
def times (r : Read ε α) : Nat → Read ε (List α)
  | 0 => pure []
  | n + 1 => do
    let a ← r
    let rest ← times r n
    pure (a :: rest)

/-- Change the failures of a read. -/
def mapError (f : ε → ε') (r : Read ε α) : Read ε' α := fun unread =>
  match r unread with
  | (.ok a, rest) => (.ok a, rest)
  | (.error e, rest) => (.error (f e), rest)

end Read

end CashWallet
