import CashWallet.Record
import CashWallet.Toml.Document

/-!
# Records in TOML
-/

namespace CashWallet.Toml

/-- The fields of a record, from a table or from an array. Items beyond the fields do not count. A
moment is a record of which no field is given. -/
def record? (names : List String) : Toml → Option (Record Toml)
  | table _ ms => Record.ofMembers? names ms
  | array items => some (Record.ofItems names items)
  | tables rows => some (Record.ofItems names (rows.reverse.map (table .header)))
  | moment _ => Record.ofMembers? names []
  | _ => none

def string? : Toml → Option String
  | string s => some s
  | _ => none

/-- An integer that is not negative. -/
def uint64? : Toml → Option UInt64
  | integer n => if 0 ≤ n then some (UInt64.ofNat n.toNat) else none
  | _ => none

def isEmpty : Toml → Bool
  | array items => items.isEmpty
  | table _ ms => ms.isEmpty
  | _ => false

/-- A name out of a few, alone or as the only key of a table that holds nothing. -/
def choice? (choices : List (String × α)) : Toml → Option α
  | string s => choices.lookup s
  | table _ [(name, v)] => if v.isEmpty then choices.lookup name else none
  | _ => none

end CashWallet.Toml
