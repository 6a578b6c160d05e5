import CashWallet.Json.Parser
import CashWallet.Record

/-!
# Records in JSON
-/

namespace CashWallet.Json

/-- The fields of a record, from an object, or from an array that has no more items than the record
has fields. -/
def record? (names : List String) : Json → Option (Record Json)
  | object members => Record.ofMembers? names members
  | array items => if items.length ≤ names.length then some (Record.ofItems names items) else none
  | _ => none

/-- Nothing, or something to decode. -/
def nullable (decode : Json → Option α) : Json → Option (Option α)
  | null => some none
  | j => (decode j).map some

/-- A name out of a few, alone or as the only key of an object that holds nothing. -/
def choice? (choices : List (String × α)) : Json → Option α
  | string s => choices.lookup s
  | object [(name, null)] => choices.lookup name
  | _ => none

def bool? : Json → Option Bool
  | bool b => some b
  | _ => none

def list? (decode : Json → Option α) : Json → Option (List α)
  | array items => items.mapM decode
  | _ => none

end CashWallet.Json
