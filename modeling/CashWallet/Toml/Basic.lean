import CashWallet.Number.Binary64

/-!
# TOML values

A document is a table. A table remembers how it came about, since that decides what may still be
added to it: a table with a header of its own cannot be extended by dotted keys, a table made by
dotted keys cannot be given a header, and an inline table is closed.
-/

namespace CashWallet

namespace Toml

/-- How a table came about. -/
inductive Origin where
  /-- By a header, or as the document itself. -/
  | header
  /-- On the way to a table below it. -/
  | implied
  /-- By a dotted key. -/
  | dotted
  /-- As a value in braces. -/
  | inline
  deriving DecidableEq, Repr

end Toml

inductive Toml where
  | string (s : String)
  | integer (n : Int)
  | float (x : Binary64)
  | bool (b : Bool)
  /-- A date, a time or both, as written. -/
  | moment (text : String)
  | array (items : List Toml)
  | table (origin : Toml.Origin) (members : List (String × Toml))
  /-- Tables under one header, the last one first. -/
  | tables (rows : List (List (String × Toml)))
  deriving Repr, Inhabited

namespace Toml

abbrev Members := List (String × Toml)

/-- Put a value under a key, in the place of the one that is there. -/
def put (key : String) (value : Toml) : Members → Members
  | [] => [(key, value)]
  | (k, v) :: rest => if k = key then (key, value) :: rest else (k, v) :: put key value rest

/-- A table that a path needs on its way. -/
def passing (dotted : Bool) : Origin :=
  if dotted then .dotted else .implied

/-- Change the table that a path leads to, with new tables on the way where there are none. A path
goes on from the last of several tables. It never leads through a value, and a dotted key never
through a table with a header. -/
def change? (dotted : Bool) (change : Origin → Members → Option Members) :
    List String → Origin → Members → Option Members
  | [], origin, ms => change origin ms
  | key :: path, _, ms => do
    match ms.lookup key with
    | none =>
      let inner ← change? dotted change path (passing dotted) []
      return put key (.table (passing dotted) inner) ms
    | some (.table origin inner) =>
      if origin = .inline || (dotted && origin = .header) then none
      else return put key (.table origin (← change? dotted change path origin inner)) ms
    | some (.tables (row :: rows)) =>
      return put key (.tables ((← change? dotted change path .header row) :: rows)) ms
    | some _ => none

/-- A key with dots in it, and its value. -/
structure Pair where
  path : List String
  key : String
  value : Toml

/-- Add a pair to a table. Only tables made by dotted keys take what dotted keys put into them, and
no key is given twice. -/
def Pair.addTo (p : Pair) (ms : Members) : Option Members :=
  change? true (fun origin ms =>
    if (origin == .dotted) == p.path.isEmpty then none
    else if (ms.lookup p.key).isSome then none
    else some (ms ++ [(p.key, p.value)])) p.path .header ms

/-- Add pairs in order. -/
def addPairs (ps : List Pair) (ms : Members) : Option Members :=
  ps.foldlM (fun ms p => p.addTo ms) ms

end Toml

end CashWallet
