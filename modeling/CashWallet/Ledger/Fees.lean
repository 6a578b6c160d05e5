import CashWallet.Json.Record

/-!
# Recommended fee rates

Rates in satoshis per byte, by how soon a transaction is to be confirmed.
-/

namespace CashWallet

structure Fees where
  fastest : UInt64
  halfHour : UInt64
  hour : UInt64
  deriving DecidableEq, Repr

namespace Fees

/-- The rates before any are known. -/
def unknown : Fees := ⟨0, 0, 0⟩

instance : Inhabited Fees := ⟨unknown⟩

def toJson (f : Fees) : Json :=
  .object [("fastestFee", .ofUInt64 f.fastest), ("halfHourFee", .ofUInt64 f.halfHour),
    ("hourFee", .ofUInt64 f.hour)]

def ofJson? (j : Json) : Option Fees := do
  let r ← j.record? ["fastestFee", "halfHourFee", "hourFee"]
  return {
    fastest := ← r.required 0 Json.uint64?
    halfHour := ← r.required 1 Json.uint64?
    hour := ← r.required 2 Json.uint64? }

end Fees

end CashWallet
