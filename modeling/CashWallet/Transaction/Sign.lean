import CashWallet.Transaction.Build
import CashWallet.Transaction.Unlock

/-!
# Signing transactions

Every input is signed by the first key whose hash the spent output is locked to. All digests are
made from the unsigned transaction, so no signature depends on another. Digests that a backend
hands out are signed one by one.
-/

namespace CashWallet

/-- A transaction with its inputs signed, and what they spend. -/
structure SignedTransaction where
  transaction : Transaction
  spent : List Output
  algorithm : DigestAlgorithm

namespace SignedTransaction

def fee (s : SignedTransaction) : UInt64 :=
  satSub (satSum (s.spent.map Output.value)) s.transaction.outputTotal

/-- Check each input against the output it spends. -/
def verify (s : SignedTransaction) : Except TransactionError Unit :=
  s.spent.zipIdx.forM fun entry => s.transaction.verifyInput entry.2 entry.1 s.algorithm

end SignedTransaction

namespace UnsignedTransaction

/-- The unlocking script for one input. -/
def scriptFor (transaction : Transaction) (algorithm : DigestAlgorithm) (keys : List PrivateKey)
    (index : Nat) (spent : Output) : Except TransactionError Script :=
  match spent.script.keyHash with
  | .error _ => .error (.unsupportedScript index spent.script.bytes)
  | .ok keyHash =>
    match keys.find? fun key => key.publicKey.hash160 == keyHash with
    | none => .error (.noKey index keyHash)
    | some key => transaction.unlock index spent algorithm key

/-- Put a script into each input. -/
def withScripts (transaction : Transaction) (scripts : List Script) : Transaction :=
  { transaction with
    inputs := transaction.inputs.zipWith (fun input script => { input with script }) scripts }

def sign (u : UnsignedTransaction) (keys : List PrivateKey) (algorithm : DigestAlgorithm) :
    Except TransactionError SignedTransaction := do
  let scripts ← u.spent.zipIdx.mapM fun entry =>
    scriptFor u.transaction algorithm keys entry.2 entry.1
  return ⟨withScripts u.transaction scripts, u.spent, algorithm⟩

end UnsignedTransaction

/-- Signatures over digests that a backend handed out, each with the key that made it. -/
structure DraftSignatures where
  signatures : List String
  publicKeys : List String
  deriving DecidableEq, Repr

/-- The bytes of a digest given in hexadecimal. -/
def digestOfHex (place : Nat) (text : String) : Except TransactionError Bytes :=
  match Hex.decode text with
  | .error fault => .error (.digestText place fault)
  | .ok bs => if bs.length = 32 then .ok bs else .error (.digestLength place bs.length)

/-- Sign each digest, in order. -/
def PrivateKey.signDigests (key : PrivateKey) (digests : List String) :
    Except TransactionError DraftSignatures := do
  let signatures ← digests.zipIdx.mapM fun entry => do
    let digest ← digestOfHex entry.2 entry.1
    let signature ← (key.sign digest).mapError TransactionError.codec
    return signature.toDerHex
  return ⟨signatures, digests.map fun _ => key.publicKey.toHex⟩

end CashWallet
