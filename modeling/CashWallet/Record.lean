/-!
# Records read from data

A record is given by its named fields, in any order and with unknown names among them, or by a
sequence of its fields in the order of their declaration. A field that is named twice is a fault. An
optional field may be left out by name but not by place; a field with a default may be left out
either way.
-/

namespace CashWallet

/-- What a piece of data holds for each field of a record. -/
structure Record (α : Type) where
  byPlace : Bool
  slots : List (Option α)

namespace Record

/-- Look up each name among some members. -/
def ofMembers? (names : List String) (members : List (String × α)) : Option (Record α) :=
  if names.all fun name => (members.filter (·.1 == name)).length ≤ 1 then
    some ⟨false, names.map fun name => (members.find? (·.1 == name)).map (·.2)⟩
  else none

/-- Give out items in order. -/
def ofItems (names : List String) (items : List α) : Record α :=
  ⟨true, (List.range names.length).map (items[·]?)⟩

def slot (r : Record α) (place : Nat) : Option α :=
  (r.slots[place]?).join

/-- A field that must be there. -/
def required (r : Record α) (place : Nat) (decode : α → Option β) : Option β :=
  (r.slot place).bind decode

/-- A field that may be left out where fields are named. -/
def optional (r : Record α) (place : Nat) (decode : α → Option (Option β)) : Option (Option β) :=
  match r.slot place with
  | some a => decode a
  | none => if r.byPlace then none else some none

/-- A field with a default. -/
def withDefault (r : Record α) (place : Nat) (fallback : β) (decode : α → Option β) : Option β :=
  match r.slot place with
  | some a => decode a
  | none => some fallback

end Record

end CashWallet
