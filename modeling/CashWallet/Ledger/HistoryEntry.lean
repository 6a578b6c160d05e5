import CashWallet.Json.Record

/-!
# Entries of the history

One transaction as an address sees it: money that came in, or money that went out.
-/

namespace CashWallet

inductive Direction where
  | incoming
  | outgoing
  deriving DecidableEq, Repr

def Direction.name : Direction → String
  | incoming => "incoming"
  | outgoing => "outgoing"

/-- A transaction of the history as an address sees it. -/
structure HistoryEntry where
  timestamp : String
  direction : Direction
  hash : String
  sender : String
  recipient : String
  value : UInt64
  confirmations : UInt64
  deriving DecidableEq, Repr

namespace Direction

def named : List (String × Direction) :=
  [incoming, outgoing].map fun d => (d.name, d)

end Direction

namespace HistoryEntry

def toJson (e : HistoryEntry) : Json :=
  .object [("timestamp", .string e.timestamp), ("direction", .string e.direction.name),
    ("hash", .string e.hash), ("from", .string e.sender), ("to", .string e.recipient),
    ("value", .ofUInt64 e.value), ("confirmations", .ofUInt64 e.confirmations)]

def ofJson? (j : Json) : Option HistoryEntry := do
  let r ← j.record? ["timestamp", "direction", "hash", "from", "to", "value", "confirmations"]
  return {
    timestamp := ← r.required 0 Json.string?
    direction := ← r.required 1 (Json.choice? Direction.named)
    hash := ← r.required 2 Json.string?
    sender := ← r.required 3 Json.string?
    recipient := ← r.required 4 Json.string?
    value := ← r.required 5 Json.uint64?
    confirmations := ← r.required 6 Json.uint64? }

end HistoryEntry

end CashWallet
