import CashWallet.Hash.Sha256
import CashWallet.Hash.Ripemd160

/-!
# The digests of the chain

Transaction ids, signature digests and checksums are SHA-256 applied twice; addresses hold the
RIPEMD-160 digest of a SHA-256 digest. Keyed hashing by HMAC serves the choice of nonces.
-/

namespace CashWallet.Hash

/-- SHA-256 of the SHA-256 digest. -/
def sha256d (message : Bytes) : Bytes :=
  Sha256.hash (Sha256.hash message)

/-- RIPEMD-160 of the SHA-256 digest. -/
def hash160 (message : Bytes) : Bytes :=
  Ripemd160.hash (Sha256.hash message)

/-- The first four bytes of the double digest, appended to a payload before it is written in
base 58. -/
def checksum (payload : Bytes) : Bytes :=
  (sha256d payload).take 4

/-- HMAC over SHA-256, for keys of at most one block. -/
def hmac (key message : Bytes) : Bytes :=
  let padded := key ++ List.replicate (64 - key.length) 0
  let inner := Sha256.hash (padded.map (· ^^^ 0x36) ++ message)
  Sha256.hash (padded.map (· ^^^ 0x5c) ++ inner)

@[simp] theorem length_sha256d (message : Bytes) : (sha256d message).length = 32 :=
  Sha256.length_hash _

@[simp] theorem length_hash160 (message : Bytes) : (hash160 message).length = 20 :=
  Ripemd160.length_hash _

@[simp] theorem length_checksum (payload : Bytes) : (checksum payload).length = 4 := by
  simp [checksum]

end CashWallet.Hash
