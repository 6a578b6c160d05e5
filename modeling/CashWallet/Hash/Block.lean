import CashWallet.Bytes.Endian

/-!
# Message blocks

Both hash functions read a message in blocks of 64 bytes, after one bit, zeros and the length in
bits have been appended. They differ in the order of the bytes of a number.
-/

namespace CashWallet.Hash

/-- Rotation to the left by `n` bits, for `0 < n < 32`. -/
def rotl (x n : UInt32) : UInt32 :=
  x <<< n ||| x >>> (32 - n)

/-- Rotation to the right by `n` bits, for `0 < n < 32`. -/
def rotr (x n : UInt32) : UInt32 :=
  x >>> n ||| x <<< (32 - n)

/-- The zero bytes that fill a message of `length` bytes up to whole blocks. -/
def padding (length : Nat) : Nat :=
  (119 - length % 64) % 64

/-- A message with its end marked and its length in bits appended by `writeLength`. -/
def padded (writeLength : Nat → Bytes) (message : Bytes) : Bytes :=
  message ++ 0x80 :: List.replicate (padding message.length) 0 ++ writeLength (8 * message.length)

/-- Cut `count` blocks of 64 bytes off the front. -/
def cutBlocks : Nat → Bytes → List Bytes
  | 0, _ => []
  | count + 1, bs => bs.take 64 :: cutBlocks count (bs.drop 64)

def blocks (bs : Bytes) : List Bytes :=
  cutBlocks (bs.length / 64) bs

/-- Four bytes to a word. -/
def words (word : UInt32 → UInt32 → UInt32 → UInt32 → UInt32) : Bytes → List UInt32
  | a :: b :: c :: d :: rest => word a.toUInt32 b.toUInt32 c.toUInt32 d.toUInt32 :: words word rest
  | _ => []

def bigWord (a b c d : UInt32) : UInt32 :=
  a <<< 24 ||| b <<< 16 ||| c <<< 8 ||| d

def littleWord (a b c d : UInt32) : UInt32 :=
  bigWord d c b a

end CashWallet.Hash
