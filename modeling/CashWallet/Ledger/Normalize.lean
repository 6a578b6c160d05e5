import CashWallet.Ledger.Amount
import CashWallet.Ledger.HistoryEntry
import CashWallet.Transaction.Basic

/-!
# Canonical ledger data

Replies of every backend are decoded into the same types. Decoding is all or nothing: one item that
does not match fails the whole reply. A transaction of the history is seen from one address: it is
outgoing when that address is among the addresses of an input, and its value is what it pays to
others, or to that address when it is incoming.
-/

namespace CashWallet

/-- An output of the history: whom it pays, and how much. -/
structure LedgerOutput where
  addresses : List String
  value : UInt64
  deriving DecidableEq, Repr

/-- A transaction of the history, with the addresses of each input. -/
structure LedgerTransaction where
  hash : String
  timestamp : String
  confirmations : UInt64
  inputs : List (List String)
  outputs : List LedgerOutput
  deriving DecidableEq, Repr

namespace Ledger

def decodeBalance (payload : Json) (m : BalanceMapping) : Except Mismatch UInt64 :=
  match payload.present? m.balance with
  | some found => amount m.unit (some found)
  | none => .error (.missingBalance m.balance)

/-- The locking script of an item, or the given one where the item has none. -/
def scriptOf (item : Json) (pointer : Option String) (fallback : Script) :
    Except Mismatch Script := do
  let hex ← match pointer with
    | some pointer => text (item.present? pointer)
    | none => .ok ""
  if hex.isEmpty then return fallback
  else (Script.ofHex hex).mapError .script

def decodeUnspent (m : UnspentMapping) (fallback : Script) (item : Json) :
    Except Mismatch Unspent := do
  if !item.isObject then throw (.unspentForm item)
  let some txid := (item.present? m.txid).bind Json.string? | throw (.missingTxId m.txid)
  let txid ← decodeTxId txid m.hashOrder
  let index ← integer (item.present? m.index)
  if UInt32.size ≤ index.toNat then throw .indexRange
  let value ← amount m.unit (item.present? m.value)
  let script ← scriptOf item m.script fallback
  return ⟨⟨value, script⟩, ⟨txid, index.toUInt32⟩⟩

/-- The unspent outputs of an address. -/
def decodeUnspents (payload : Json) (m : UnspentMapping) (address : Address) :
    Except Mismatch (List Unspent) := do
  let items ← if m.listOptional then optionalList payload m.list else list payload m.list
  items.mapM (decodeUnspent m address.lock)

def decodeOutput (m : HistoryMapping) (item : Json) : Except Mismatch LedgerOutput := do
  let addresses ← addresses (item.present? m.outputAddresses)
  let value ← amount m.unit (item.present? m.outputValue)
  return ⟨addresses, value⟩

def decodeTransaction (m : HistoryMapping) (item : Json) : Except Mismatch LedgerTransaction := do
  if !item.isObject then throw (.transactionForm item)
  let inputs ← (← optionalList item m.inputs).mapM fun input =>
    addresses (input.present? m.inputAddresses)
  let outputs ← (← optionalList item m.outputs).mapM (decodeOutput m)
  let hash ← text (item.present? m.hash)
  let timestamp ← text (item.present? m.timestamp)
  let confirmations ← integer (item.present? m.confirmations)
  return { hash, timestamp, confirmations, inputs, outputs }

def decodeHistory (payload : Json) (m : HistoryMapping) :
    Except Mismatch (List LedgerTransaction) := do
  (← list payload m.list).mapM (decodeTransaction m)

end Ledger

namespace LedgerTransaction

def direction (tx : LedgerTransaction) (address : String) : Direction :=
  if tx.inputs.any (·.contains address) then .outgoing else .incoming

/-- Whether an output counts for the value of a transaction. -/
def counts (direction : Direction) (address : String) (output : LedgerOutput) : Bool :=
  match direction with
  | .incoming => output.addresses.contains address
  | .outgoing => !output.addresses.contains address

/-- The first address of the last set that has one. -/
def lastFirst (sets : List (List String)) : String :=
  (sets.reverse.findSome? List.head?).getD ""

/-- How an address sees a transaction. -/
def classify (tx : LedgerTransaction) (address : String) : HistoryEntry :=
  let direction := tx.direction address
  { timestamp := tx.timestamp
    direction
    hash := tx.hash
    sender := lastFirst tx.inputs
    recipient := lastFirst (tx.outputs.map LedgerOutput.addresses)
    value := satSum ((tx.outputs.filter (counts direction address)).map LedgerOutput.value)
    confirmations := tx.confirmations }

end LedgerTransaction

/-- The history of an address. -/
def Ledger.decodeClassified (payload : Json) (m : HistoryMapping) (address : String) :
    Except Mismatch (List HistoryEntry) := do
  return (← decodeHistory payload m).map (·.classify address)

end CashWallet
