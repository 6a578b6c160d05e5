import CashWallet.Json.Printer
import CashWallet.Json.Record
import CashWallet.Ledger.Schema

/-!
# Schemas as JSON

Schemas are plain data and have a form as JSON records.
-/

namespace CashWallet

namespace Json

def ofString (s : String) : Json := .string s

def ofOption (encode : α → Json) : Option α → Json
  | some a => encode a
  | none => .null

end Json

namespace BalanceMapping

def toJson (m : BalanceMapping) : Json :=
  .object [("path", .string m.path), ("balance", .string m.balance), ("unit", .string m.unit.name)]

def ofJson? (j : Json) : Option BalanceMapping := do
  let r ← j.record? ["path", "balance", "unit"]
  return {
    path := ← r.required 0 Json.string?
    balance := ← r.required 1 Json.string?
    unit := ← r.required 2 (Json.choice? AmountUnit.named) }

end BalanceMapping

namespace UnspentMapping

def toJson (m : UnspentMapping) : Json :=
  .object [("path", .string m.path), ("list", .string m.list),
    ("list_optional", .bool m.listOptional), ("txid", .string m.txid), ("index", .string m.index),
    ("value", .string m.value), ("script", .ofOption .ofString m.script),
    ("unit", .string m.unit.name), ("hash_order", .string m.hashOrder.name)]

def ofJson? (j : Json) : Option UnspentMapping := do
  let r ← j.record? ["path", "list", "list_optional", "txid", "index", "value", "script", "unit",
    "hash_order"]
  return {
    path := ← r.required 0 Json.string?
    list := ← r.required 1 Json.string?
    listOptional := ← r.withDefault 2 false Json.bool?
    txid := ← r.required 3 Json.string?
    index := ← r.required 4 Json.string?
    value := ← r.required 5 Json.string?
    script := ← r.optional 6 (Json.nullable Json.string?)
    unit := ← r.required 7 (Json.choice? AmountUnit.named)
    hashOrder := ← r.required 8 (Json.choice? HashOrder.named) }

end UnspentMapping

namespace HistoryMapping

def toJson (m : HistoryMapping) : Json :=
  .object [("path", .string m.path), ("list", .string m.list), ("hash", .string m.hash),
    ("timestamp", .string m.timestamp), ("confirmations", .string m.confirmations),
    ("inputs", .string m.inputs), ("input_addresses", .string m.inputAddresses),
    ("outputs", .string m.outputs), ("output_addresses", .string m.outputAddresses),
    ("output_value", .string m.outputValue), ("unit", .string m.unit.name)]

def ofJson? (j : Json) : Option HistoryMapping := do
  let r ← j.record? ["path", "list", "hash", "timestamp", "confirmations", "inputs",
    "input_addresses", "outputs", "output_addresses", "output_value", "unit"]
  return {
    path := ← r.required 0 Json.string?
    list := ← r.required 1 Json.string?
    hash := ← r.required 2 Json.string?
    timestamp := ← r.required 3 Json.string?
    confirmations := ← r.required 4 Json.string?
    inputs := ← r.required 5 Json.string?
    inputAddresses := ← r.required 6 Json.string?
    outputs := ← r.required 7 Json.string?
    outputAddresses := ← r.required 8 Json.string?
    outputValue := ← r.required 9 Json.string?
    unit := ← r.required 10 (Json.choice? AmountUnit.named) }

end HistoryMapping

namespace BroadcastMapping

def toJson (m : BroadcastMapping) : Json :=
  .object [("path", .string m.path), ("body_field", .string m.bodyField),
    ("txid", .ofOption .ofString m.txid), ("error_field", .string m.errorField)]

def ofJson? (j : Json) : Option BroadcastMapping := do
  let r ← j.record? ["path", "body_field", "txid", "error_field"]
  return {
    path := ← r.required 0 Json.string?
    bodyField := ← r.required 1 Json.string?
    txid := ← r.optional 2 (Json.nullable Json.string?)
    errorField := ← r.required 3 Json.string? }

end BroadcastMapping

namespace TwoPhaseMapping

def toJson (m : TwoPhaseMapping) : Json :=
  .object [("new_path", .string m.newPath), ("send_path", .string m.sendPath),
    ("tosign", .string m.digests), ("fee", .string m.fee), ("txid", .string m.txid),
    ("error_field", .string m.errorField)]

def ofJson? (j : Json) : Option TwoPhaseMapping := do
  let r ← j.record? ["new_path", "send_path", "tosign", "fee", "txid", "error_field"]
  return {
    newPath := ← r.required 0 Json.string?
    sendPath := ← r.required 1 Json.string?
    digests := ← r.required 2 Json.string?
    fee := ← r.required 3 Json.string?
    txid := ← r.required 4 Json.string?
    errorField := ← r.required 5 Json.string? }

end TwoPhaseMapping

namespace Schema

def toJson (s : Schema) : Json :=
  .object [("name", .string s.name), ("base_url", .string s.baseUrl),
    ("balance", s.balance.toJson), ("utxos", s.unspent.toJson), ("history", s.history.toJson),
    ("broadcast", s.broadcast.toJson), ("two_phase", .ofOption TwoPhaseMapping.toJson s.twoPhase)]

def ofJson? (j : Json) : Option Schema := do
  let r ← j.record? ["name", "base_url", "balance", "utxos", "history", "broadcast", "two_phase"]
  return {
    name := ← r.required 0 Json.string?
    baseUrl := ← r.required 1 Json.string?
    balance := ← r.required 2 BalanceMapping.ofJson?
    unspent := ← r.required 3 UnspentMapping.ofJson?
    history := ← r.required 4 HistoryMapping.ofJson?
    broadcast := ← r.required 5 BroadcastMapping.ofJson?
    twoPhase := ← r.optional 6 (Json.nullable TwoPhaseMapping.ofJson?) }

/-- The schema that a document describes. -/
def parse? (text : String) : Option Schema :=
  (Json.parse? text).bind ofJson?

end Schema

end CashWallet
