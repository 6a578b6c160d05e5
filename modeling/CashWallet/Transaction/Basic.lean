import CashWallet.Bytes.Field
import CashWallet.Number.Saturating
import CashWallet.Script.Basic
import CashWallet.Transaction.Error
import CashWallet.TxId

/-!
# Transactions

A transaction spends outputs of earlier transactions and creates new ones. On the wire it is its
version, a count and the inputs, a count and the outputs, and its lock time. Reading takes exactly
one transaction.
-/

namespace CashWallet

/-- A place among the outputs of a transaction. -/
structure Outpoint where
  txid : TxId
  index : UInt32
  deriving DecidableEq, Repr, Inhabited

/-- An amount and the script that locks it. -/
structure Output where
  value : UInt64
  script : Script
  deriving DecidableEq, Repr, Inhabited

/-- A spent outpoint with the script that unlocks it, empty until the input is signed. -/
structure Input where
  outpoint : Outpoint
  script : Script
  sequence : UInt32
  deriving DecidableEq, Repr, Inhabited

structure Transaction where
  version : UInt32
  inputs : List Input
  outputs : List Output
  lockTime : UInt32
  deriving DecidableEq, Repr, Inhabited

/-- An output that is not spent yet, and where it lives. -/
structure Unspent where
  output : Output
  outpoint : Outpoint
  deriving DecidableEq, Repr, Inhabited

namespace Outpoint

/-- The outpoint of a transaction id in its display form. -/
def ofTxIdHex (text : String) (index : UInt32) : Except TransactionError Outpoint :=
  match TxId.ofHex text with
  | .ok txid => .ok ⟨txid, index⟩
  | .error e => .error (.codec e)

def describe (o : Outpoint) : String :=
  o.txid.toHex ++ ":" ++ toString o.index

def encode (o : Outpoint) : Bytes :=
  o.txid.bytes ++ Endian.toLittle 4 o.index.toNat

def read : Read TransactionError Outpoint := do
  let bs ← (Read.bytes 32).mapError .codec
  let index ← Read.u32.mapError .codec
  match TxId.ofBytes bs with
  | .ok txid => pure ⟨txid, index⟩
  | .error e => .fail (.codec e)

def toJson (o : Outpoint) : Json :=
  .object [("hash", o.txid.toJson), ("index", .ofUInt32 o.index)]

def ofJson? (j : Json) : Option Outpoint := do
  let fields ← j.record? ["hash", "index"]
  return { txid := ← fields.required 0 TxId.ofJson?, index := ← fields.required 1 Json.uint32? }

end Outpoint

namespace Output

def encode (o : Output) : Bytes :=
  Endian.toLittle 8 o.value.toNat ++ Field.encodeVarBytes o.script.bytes

def read : Read TransactionError Output := do
  let value ← Read.u64.mapError .codec
  let script ← Read.varBytes.mapError .codec
  pure ⟨value, ⟨script⟩⟩

def toJson (o : Output) : Json :=
  .object [("value", .ofUInt64 o.value), ("locking_script", o.script.toJson)]

def ofJson? (j : Json) : Option Output := do
  let fields ← j.record? ["value", "locking_script"]
  return { value := ← fields.required 0 Json.uint64?, script := ← fields.required 1 Script.ofJson? }

end Output

namespace Unspent

def value (u : Unspent) : UInt64 := u.output.value

def toJson (u : Unspent) : Json :=
  .object [("output", u.output.toJson), ("outpoint", u.outpoint.toJson)]

def ofJson? (j : Json) : Option Unspent := do
  let fields ← j.record? ["output", "outpoint"]
  return {
    output := ← fields.required 0 Output.ofJson?
    outpoint := ← fields.required 1 Outpoint.ofJson? }

/-- The total of some outputs. -/
def total (us : List Unspent) : UInt64 :=
  satSum (us.map value)

end Unspent

namespace Input

/-- No relative lock time. -/
def finalSequence : UInt32 := 0xffffffff

def unsigned (outpoint : Outpoint) : Input :=
  ⟨outpoint, .empty, finalSequence⟩

def isSigned (i : Input) : Bool :=
  !i.script.bytes.isEmpty

def encode (i : Input) : Bytes :=
  i.outpoint.encode ++ Field.encodeVarBytes i.script.bytes ++ Endian.toLittle 4 i.sequence.toNat

def read : Read TransactionError Input := do
  let outpoint ← Outpoint.read
  let script ← Read.varBytes.mapError .codec
  let sequence ← Read.u32.mapError .codec
  pure ⟨outpoint, ⟨script⟩, sequence⟩

end Input

namespace Transaction

/-- Transactions are made with this version unless another is asked for. -/
def defaultVersion : UInt32 := 1

def encode (tx : Transaction) : Bytes :=
  Endian.toLittle 4 tx.version.toNat ++
    CompactSize.encode (UInt64.ofNat tx.inputs.length) ++ tx.inputs.flatMap Input.encode ++
    CompactSize.encode (UInt64.ofNat tx.outputs.length) ++ tx.outputs.flatMap Output.encode ++
    Endian.toLittle 4 tx.lockTime.toNat

def read : Read TransactionError Transaction := do
  let version ← Read.u32.mapError .version
  let inputCount ← Read.compactSize.mapError .codec
  let inputs ← Read.times Input.read inputCount.toNat
  let outputCount ← Read.compactSize.mapError .codec
  let outputs ← Read.times Output.read outputCount.toNat
  let lockTime ← Read.u32.mapError .lockTime
  pure ⟨version, inputs, outputs, lockTime⟩

/-- Exactly one transaction, with nothing behind it. -/
def ofBytes (bs : Bytes) : Except TransactionError Transaction :=
  match read bs with
  | (.ok tx, rest) => if rest.isEmpty then .ok tx else .error (.trailingBytes rest.length)
  | (.error e, _) => .error e

def ofHex (text : String) : Except TransactionError Transaction :=
  match Hex.decode text with
  | .ok bs => ofBytes bs
  | .error fault => .error (.hexText fault)

def toHex (tx : Transaction) : String :=
  Hex.encode tx.encode

/-- The double digest of the wire form. -/
def id (tx : Transaction) : TxId :=
  TxId.ofData tx.encode

def size (tx : Transaction) : Nat :=
  tx.encode.length

/-- The value of all outputs together. -/
def outputTotal (tx : Transaction) : UInt64 :=
  satSum (tx.outputs.map Output.value)

end Transaction

end CashWallet
