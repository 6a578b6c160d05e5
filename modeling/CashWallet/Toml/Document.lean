import CashWallet.Toml.Parser

/-!
# TOML documents

Pairs before the first header belong to the document itself, pairs behind a header to the table it
names. A table may be named by a header once, before or after tables below it; a header in double
brackets adds one more table under its name.
-/

namespace CashWallet.Toml

/-- A header, and the pairs behind it. -/
structure Section where
  path : List String
  /-- Whether it adds one table to several. -/
  several : Bool
  pairs : List Pair

/-- The pairs before the first header, and the sections. -/
def sections : List Statement → List Pair × List Section
  | [] => ([], [])
  | .pair p :: rest =>
    let (pairs, found) := sections rest
    (p :: pairs, found)
  | .table path :: rest =>
    let (pairs, found) := sections rest
    ([], ⟨path, false, pairs⟩ :: found)
  | .row path :: rest =>
    let (pairs, found) := sections rest
    ([], ⟨path, true, pairs⟩ :: found)

/-- Put a section into the table that its name is in. -/
def Section.fill? (s : Section) (key : String) (ms : Members) : Option Members := do
  if s.several then
    match ms.lookup key with
    | none => return put key (.tables [← addPairs s.pairs []]) ms
    | some (.tables rows) => return put key (.tables ((← addPairs s.pairs []) :: rows)) ms
    | some _ => none
  else
    match ms.lookup key with
    | none => return put key (.table .header (← addPairs s.pairs [])) ms
    | some (.table .implied inner) =>
      return put key (.table .header (← addPairs s.pairs inner)) ms
    | some _ => none

def Section.addTo (s : Section) (ms : Members) : Option Members :=
  change? false (fun _ ms => s.fill? (s.path.getLastD "") ms) s.path.dropLast .header ms

/-- The table that lines make. -/
def ofStatements? (ss : List Statement) : Option Toml := do
  let (pairs, found) := sections ss
  let ms ← addPairs pairs []
  let ms ← found.foldlM (fun ms s => s.addTo ms) ms
  return .table .header ms

/-- A mark of the byte order may stand before the document. -/
def skipByteOrderMark : List Char → List Char
  | c :: rest => if c.val = 0xfeff then rest else c :: rest
  | [] => []

/-- Read a whole document. -/
def parse? (text : String) : Option Toml :=
  let cs := skipByteOrderMark text.toList
  (statements (cs.length + 1) cs).bind ofStatements?

end CashWallet.Toml
