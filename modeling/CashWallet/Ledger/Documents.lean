import CashWallet.Ledger.Normalize
import Mathlib.Data.List.Defs

/-!
# Documents of the built-in backends

One ledger as each of the two backends tells it. A document is described by the members that it must
have; whatever else it has, and in which order, is left open.
-/

namespace CashWallet

namespace Json

/-- The value is an object with such a member. -/
def HasMember (key : String) (P : Json → Prop) (j : Json) : Prop :=
  ∃ found, j.field? key = some found ∧ P found

/-- The value is an array that tells each entry of a list, in order. -/
def Tells (R : α → Json → Prop) (entries : List α) (j : Json) : Prop :=
  ∃ items, j = .array items ∧ List.Forall₂ R entries items

/-- A text, or a number that reads so. -/
inductive TellsText (text : String) : Json → Prop
  | string : TellsText text (.string text)
  | number (n : Number) (reads : n.print = text) : TellsText text (.number n)

/-- Addresses, or the only one of them by itself. -/
inductive TellsAddresses : List String → Json → Prop
  | array (addresses : List String) : TellsAddresses addresses (.array (addresses.map .string))
  | single (address : String) (filled : address ≠ "") : TellsAddresses [address] (.string address)

end Json

namespace Ledger

open Json

/-- An amount in coins, with eight places. -/
def coinText (value : UInt64) : String :=
  String.ofList (Nat.toDigits 10 (value.toNat / 100000000) ++
    '.' :: (Nat.toDigits 10 (value.toNat % 100000000)).leftpad 8 '0')

/-- An unspent output as a backend lists it, with the id of its transaction in the order of
display. -/
structure Listing where
  shown : Bytes
  length_shown : shown.length = 32
  index : UInt32
  value : UInt64

/-- The unspent output of an address that is listed. -/
def Listing.unspent (entry : Listing) (address : Address) : Unspent :=
  ⟨⟨entry.value, address.lock⟩,
    ⟨⟨entry.shown.reverse, by rw [List.length_reverse, entry.length_shown]⟩, entry.index⟩⟩

/-- The names of the members in which the transactions of the history stand. -/
structure HistoryNames where
  list : String
  hash : String
  timestamp : String
  confirmations : String
  inputs : String
  inputAddresses : String
  outputs : String

/-- A transaction of the history under some names, with outputs as a backend tells them. -/
structure TellsTransaction (names : HistoryNames) (TellsOutput : LedgerOutput → Json → Prop)
    (tx : LedgerTransaction) (item : Json) : Prop where
  hash : item.HasMember names.hash (· = .string tx.hash)
  timestamp : item.HasMember names.timestamp (TellsText tx.timestamp)
  confirmations : item.HasMember names.confirmations (· = .ofUInt64 tx.confirmations)
  inputs : item.HasMember names.inputs
    (Tells (fun addresses => HasMember names.inputAddresses (TellsAddresses addresses)) tx.inputs)
  outputs : item.HasMember names.outputs (Tells TellsOutput tx.outputs)

/-- The history of an address. -/
def TellsHistory (names : HistoryNames) (TellsOutput : LedgerOutput → Json → Prop)
    (txs : List LedgerTransaction) (payload : Json) : Prop :=
  payload.HasMember names.list (Tells (TellsTransaction names TellsOutput) txs)

namespace Blockcypher

/-- The script of an item may be left out, since it is that of the address. -/
inductive TellsScript (address : Address) (item : Json) : Prop
  | absent (script : item.field? "script" = none)
  | null (script : item.field? "script" = some .null)
  | hex (script : item.field? "script" = some (.string address.lock.toHex))

structure TellsUnspent (address : Address) (entry : Listing) (item : Json) : Prop where
  txid : item.HasMember "tx_hash" (· = .string (Hex.encode entry.shown))
  index : item.HasMember "tx_output_n" (· = .ofUInt32 entry.index)
  value : item.HasMember "value" (· = .ofUInt64 entry.value)
  script : TellsScript address item

/-- The list of the unspent outputs of an address is left out where there are none. -/
inductive TellsUnspents (address : Address) : List Listing → Json → Prop
  | listed {entries : List Listing} {payload : Json}
      (list : payload.HasMember "txrefs" (Tells (TellsUnspent address) entries)) :
      TellsUnspents address entries payload
  | omitted {payload : Json} (object : payload.isObject) (list : payload.field? "txrefs" = none) :
      TellsUnspents address [] payload

structure TellsOutput (output : LedgerOutput) (item : Json) : Prop where
  addresses : item.HasMember "addresses" (TellsAddresses output.addresses)
  value : item.HasMember "value" (· = .ofUInt64 output.value)

def names : HistoryNames where
  list := "txs"
  hash := "hash"
  timestamp := "received"
  confirmations := "confirmations"
  inputs := "inputs"
  inputAddresses := "addresses"
  outputs := "outputs"

def TellsHistory (txs : List LedgerTransaction) (payload : Json) : Prop :=
  Ledger.TellsHistory names TellsOutput txs payload

/-- The unspent outputs with nothing else about them. -/
def unspentsDocument (entries : List Listing) : Json :=
  .object [("txrefs", .array (entries.map fun entry =>
    .object [("tx_hash", .string (Hex.encode entry.shown)), ("tx_output_n", .ofUInt32 entry.index),
      ("value", .ofUInt64 entry.value)]))]

def outputDocument (output : LedgerOutput) : Json :=
  .object [("addresses", .array (output.addresses.map .string)), ("value", .ofUInt64 output.value)]

/-- The history with nothing else about it. -/
def historyDocument (txs : List LedgerTransaction) : Json :=
  .object [("txs", .array (txs.map fun tx =>
    .object [("hash", .string tx.hash), ("received", .string tx.timestamp),
      ("confirmations", .ofUInt64 tx.confirmations),
      ("inputs", .array (tx.inputs.map fun shown =>
        .object [("addresses", .array (shown.map .string))])),
      ("outputs", .array (tx.outputs.map outputDocument))]))]

end Blockcypher

namespace BitcoinCom

structure TellsUnspent (entry : Listing) (item : Json) : Prop where
  txid : item.HasMember "txid" (· = .string (Hex.encode entry.shown))
  index : item.HasMember "vout" (· = .ofUInt32 entry.index)
  value : item.HasMember "amount" (· = .string (coinText entry.value))

def TellsUnspents (entries : List Listing) (payload : Json) : Prop :=
  payload.HasMember "utxos" (Tells TellsUnspent entries)

structure TellsOutput (output : LedgerOutput) (item : Json) : Prop where
  addresses : item.HasMember "scriptPubKey"
    (HasMember "addresses" (TellsAddresses output.addresses))
  value : item.HasMember "value" (· = .string (coinText output.value))

def names : HistoryNames where
  list := "txs"
  hash := "txid"
  timestamp := "time"
  confirmations := "confirmations"
  inputs := "vin"
  inputAddresses := "addr"
  outputs := "vout"

def TellsHistory (txs : List LedgerTransaction) (payload : Json) : Prop :=
  Ledger.TellsHistory names TellsOutput txs payload

/-- The unspent outputs with nothing else about them. -/
def unspentsDocument (entries : List Listing) : Json :=
  .object [("utxos", .array (entries.map fun entry =>
    .object [("txid", .string (Hex.encode entry.shown)), ("vout", .ofUInt32 entry.index),
      ("amount", .string (coinText entry.value))]))]

def outputDocument (output : LedgerOutput) : Json :=
  .object [("scriptPubKey", .object [("addresses", .array (output.addresses.map .string))]),
    ("value", .string (coinText output.value))]

/-- The history with nothing else about it. -/
def historyDocument (txs : List LedgerTransaction) : Json :=
  .object [("txs", .array (txs.map fun tx =>
    .object [("txid", .string tx.hash), ("time", .string tx.timestamp),
      ("confirmations", .ofUInt64 tx.confirmations),
      ("vin", .array (tx.inputs.map fun shown =>
        .object [("addr", .array (shown.map .string))])),
      ("vout", .array (tx.outputs.map outputDocument))]))]

end BitcoinCom

end Ledger

end CashWallet
