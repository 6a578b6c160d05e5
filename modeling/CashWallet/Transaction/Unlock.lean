import CashWallet.Address
import CashWallet.Signature.Ecdsa
import CashWallet.Transaction.Digest

/-!
# Unlocking a payment

A payment to a key hash is unlocked by a push of a signature with its digest type behind it and a
push of the public key.
-/

namespace CashWallet.Transaction

/-- The script that unlocks the output spent by the input at `index`. -/
def unlock (tx : Transaction) (index : Nat) (spent : Output) (algorithm : DigestAlgorithm)
    (key : PrivateKey) : Except TransactionError Script := do
  let digest ← tx.signatureDigest index spent algorithm
  let signature ← (key.sign digest).mapError .codec
  let script ← (Script.empty.appendPush (signature.toDer ++ [algorithm.flag])).mapError .script
  (script.appendPush key.publicKey.toBytes).mapError .script

/-- The two pushes of an unlocking script. -/
def unlockParts (index : Nat) (script : Script) : Except TransactionError (Bytes × Bytes) := do
  match ← script.pushes.mapError TransactionError.script with
  | [signature, publicKey] => return (signature, publicKey)
  | pushes => throw (.pushCount index pushes.length)

/-- Check that the input at `index` unlocks the output it spends: the public key has the hash the
output is locked to, the digest type is the wanted one, and the signature is the key's. -/
def verifyInput (tx : Transaction) (index : Nat) (spent : Output) (algorithm : DigestAlgorithm) :
    Except TransactionError Unit := do
  let some input := tx.inputs[index]? | throw (.noInput index)
  let keyHash ← spent.script.keyHash.mapError TransactionError.script
  let (signed, publicKey) ← unlockParts index input.script
  let some flag := signed.getLast? | throw (.emptySignature index)
  if flag ≠ algorithm.flag then throw (.digestFlag index flag algorithm.flag)
  let publicKey ← (PublicKey.ofBytes publicKey).mapError .codec
  if publicKey.hash160 ≠ keyHash then throw (.foreignKey index)
  let signature ← (Signature.ofDer signed.dropLast).mapError .codec
  let digest ← tx.signatureDigest index spent algorithm
  if !publicKey.verify digest signature then throw (.invalidSignature index)

end CashWallet.Transaction
