import CashWallet.Transaction.Basic

/-!
# Signature digests

What a signature of an input commits to: everything but the signature scripts. The fork digest
commits to the spent value and hashes outpoints, sequences and outputs apart. The legacy digest is
that of the transaction with the spent script in the place of the input's own and all other scripts
empty.
-/

namespace CashWallet

inductive DigestAlgorithm where
  | forkId
  | legacy
  deriving DecidableEq, Repr, Inhabited

namespace DigestAlgorithm

/-- The type byte that stands at the end of a signature. -/
def flag : DigestAlgorithm → UInt8
  | forkId => 0x41
  | legacy => 0x01

def name : DigestAlgorithm → String
  | forkId => "forkid"
  | legacy => "legacy"

def named : List (String × DigestAlgorithm) :=
  [forkId, legacy].map fun a => (a.name, a)

/-- The type as it stands at the end of a preimage. -/
def suffix (a : DigestAlgorithm) : Bytes :=
  Endian.toLittle 4 a.flag.toNat

end DigestAlgorithm

namespace Transaction

def forkIdPreimage (tx : Transaction) (input : Input) (spent : Output) : Bytes :=
  Endian.toLittle 4 tx.version.toNat ++
    Hash.sha256d (tx.inputs.flatMap fun i => i.outpoint.encode) ++
    Hash.sha256d (tx.inputs.flatMap fun i => Endian.toLittle 4 i.sequence.toNat) ++
    input.outpoint.encode ++
    Field.encodeVarBytes spent.script.bytes ++
    Endian.toLittle 8 spent.value.toNat ++
    Endian.toLittle 4 input.sequence.toNat ++
    Hash.sha256d (tx.outputs.flatMap Output.encode) ++
    Endian.toLittle 4 tx.lockTime.toNat ++
    DigestAlgorithm.forkId.suffix

/-- All scripts empty but that of one input, which is the spent one. -/
def scriptsReplaced (tx : Transaction) (index : Nat) (spent : Script) : Transaction :=
  { tx with
    inputs := tx.inputs.mapIdx fun i input =>
      { input with script := if i = index then spent else .empty } }

def legacyPreimage (tx : Transaction) (index : Nat) (spent : Script) : Bytes :=
  (tx.scriptsReplaced index spent).encode ++ DigestAlgorithm.legacy.suffix

/-- The digest that a signature of the input at `index`, which spends `spent`, is made over. -/
def signatureDigest (tx : Transaction) (index : Nat) (spent : Output)
    (algorithm : DigestAlgorithm) : Except TransactionError Bytes :=
  match tx.inputs[index]? with
  | none => .error (.indexOutOfRange index tx.inputs.length)
  | some input =>
    .ok (Hash.sha256d (match algorithm with
      | .forkId => tx.forkIdPreimage input spent
      | .legacy => tx.legacyPreimage index spent.script))

end Transaction

end CashWallet
