import CashWallet.Bytes.Endian

/-!
# Compact-size integers

The count prefix of wire data: one byte below 253, else a marker byte and two, four or eight bytes.
The writer picks the shortest of the four forms.
-/

namespace CashWallet.CompactSize

/-- The bytes that the written form of `n` takes. -/
def size (n : UInt64) : Nat :=
  if n < 0xfd then 1
  else if n ≤ 0xffff then 3
  else if n ≤ 0xffffffff then 5
  else 9

def encode (n : UInt64) : Bytes :=
  if n < 0xfd then [n.toUInt8]
  else if n ≤ 0xffff then 0xfd :: Endian.toLittle 2 n.toNat
  else if n ≤ 0xffffffff then 0xfe :: Endian.toLittle 4 n.toNat
  else 0xff :: Endian.toLittle 8 n.toNat

theorem length_encode (n : UInt64) : (encode n).length = size n := by
  unfold encode size
  repeat' split
  all_goals simp

end CashWallet.CompactSize
