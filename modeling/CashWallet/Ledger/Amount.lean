import CashWallet.Json.Pointer
import CashWallet.Number.Saturating
import CashWallet.Ledger.Error
import CashWallet.Ledger.Schema
import CashWallet.TxId

/-!
# Fields of a reply

Amounts, integers and texts as backends write them. A field that is absent or null has its zero
value. An amount is converted exactly: what is smaller than a satoshi is cut off, and an amount
below zero or beyond 64 bits is refused.
-/

namespace CashWallet

/-- The value that a pointer leads to, if it is there and not null. -/
def Json.present? (j : Json) (pointer : String) : Option Json :=
  (j.pointer? pointer).filter fun found => !found.isNull

namespace Ledger

/-- The satoshis of a decimal amount. -/
def decimalToSatoshis (text : String) (unit : AmountUnit) : Except Mismatch UInt64 :=
  match Decimal.parse (Text.trim text) with
  | .error fault => .error (.amountText text fault)
  | .ok d =>
    if d.coefficient < 0 then .error (.negativeAmount text)
    else
      match d.floorScaled? unit.places maxAmount with
      | some n => .ok (UInt64.ofNat n)
      | none => .error (.amountRange text)

/-- The satoshis of an amount in coins. -/
def coinsToSatoshis (text : String) : Except Mismatch UInt64 :=
  decimalToSatoshis text .coins

/-- The satoshis of an amount that is a number or a text. -/
def amount (unit : AmountUnit) : Option Json → Except Mismatch UInt64
  | none => .ok 0
  | some .null => .ok 0
  | some (.number n) =>
    match unit, n with
    | .satoshis, .natural sats => .ok sats
    | _, _ => decimalToSatoshis n.print unit
  | some (.string s) => decimalToSatoshis s unit
  | some found => .error (.amountForm found)

def integer : Option Json → Except Mismatch UInt64
  | none => .ok 0
  | some .null => .ok 0
  | some (.number (.natural n)) => .ok n
  | some (.number n) => .error (.integerForm n.print)
  | some (.string s) =>
    match Integer.u64? (Text.trim s) with
    | some n => .ok n
    | none => .error (.integerForm (Text.quoted s))
  | some found => .error (.integerForm found.print)

def text : Option Json → Except Mismatch String
  | none => .ok ""
  | some .null => .ok ""
  | some (.string s) => .ok s
  | some (.number n) => .ok n.print
  | some found => .error (.textForm found)

def addressText (j : Json) : Except Mismatch String :=
  match j with
  | .string s => .ok s
  | found => .error (.addressForm found)

/-- One address, or a list of them in which null is passed over. -/
def addresses : Option Json → Except Mismatch (List String)
  | none => .ok []
  | some .null => .ok []
  | some (.string s) => .ok (if s.isEmpty then [] else [s])
  | some (.array items) => (items.filter fun j => !j.isNull).mapM addressText
  | some found => .error (.addressField found)

/-- A list that must be there. -/
def list (payload : Json) (pointer : String) : Except Mismatch (List Json) :=
  match payload.present? pointer with
  | some (.array items) => .ok items
  | some found => .error (.notArray pointer found)
  | none => .error (.missingList pointer)

/-- A list that is empty when it is absent. -/
def optionalList (payload : Json) (pointer : String) : Except Mismatch (List Json) :=
  match payload.present? pointer with
  | some (.array items) => .ok items
  | some found => .error (.notArray pointer found)
  | none => .ok []

/-- A transaction id in the byte order of the backend. -/
def decodeTxId (text : String) (order : HashOrder) : Except Mismatch TxId :=
  let decoded := match order with
    | .display => TxId.ofHex text
    | .internal => TxId.ofInternalHex text
  decoded.mapError (.txid text)

end Ledger

end CashWallet
