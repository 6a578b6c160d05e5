import CashWallet.Bytes.Cursor
import CashWallet.Transaction.Basic
import Mathlib.Logic.Function.Basic

/-!
# Reading a transaction in place, with its cost

The reader of transactions over a position in the bytes. Beside the position it keeps a tally of
each of the two lists: the room that is reserved when the count of the list has been read, the
rounds that are begun, and the items that are put into the list.
-/

namespace CashWallet

namespace Outpoint

def walk : Walk Cursor TransactionError Outpoint := do
  let bs ← (Walk.bytes 32).mapFault .codec
  let index ← Walk.u32.mapFault .codec
  match TxId.ofBytes bs with
  | .ok txid => pure ⟨txid, index⟩
  | .error e => throw (.fault (.codec e))

end Outpoint

namespace Output

def walk : Walk Cursor TransactionError Output := do
  let value ← Walk.u64.mapFault .codec
  let script ← Walk.varBytes.mapFault .codec
  pure ⟨value, ⟨script⟩⟩

end Output

namespace Input

def walk : Walk Cursor TransactionError Input := do
  let outpoint ← Outpoint.walk
  let script ← Walk.varBytes.mapFault .codec
  let sequence ← Walk.u32.mapFault .codec
  pure ⟨outpoint, ⟨script⟩, sequence⟩

end Input

namespace Transaction

/-- The lists of a transaction. -/
inductive Part where
  | inputs
  | outputs
  deriving DecidableEq, Repr

/-- The fewest bytes that an item of a list takes. -/
def Part.least : Part → Nat
  | inputs => 41
  | outputs => 9

structure Tally where
  room : Nat
  begun : Nat
  done : Nat
  deriving DecidableEq, Repr

structure Meter where
  cursor : Cursor
  tally : Part → Tally

namespace Meter

def start (data : Bytes) : Meter :=
  ⟨.start data, fun _ => ⟨0, 0, 0⟩⟩

/-- Change the tally of one list. -/
def note (m : Meter) (part : Part) (f : Tally → Tally) : Meter :=
  { m with tally := Function.update m.tally part (f (m.tally part)) }

end Meter

/-- A walk that has no part in the tallies. -/
def untallied (w : Walk Cursor ε α) : Walk Meter ε α :=
  ExceptT.mk fun m => ((w.run m.cursor).1, { m with cursor := (w.run m.cursor).2 })

/-- One round of a list. It is begun before its item is read, and done when it is. -/
def round (part : Part) (item : Walk Cursor ε α) : Walk Meter ε α := do
  modify (·.note part fun t => { t with begun := t.begun + 1 })
  let a ← untallied item
  modify (·.note part fun t => { t with done := t.done + 1 })
  pure a

def rounds (part : Part) (item : Walk Cursor ε α) : Nat → Walk Meter ε (List α)
  | 0 => pure []
  | n + 1 => do
    let a ← round part item
    let rest ← rounds part item n
    pure (a :: rest)

/-- Items behind their count. Room is reserved for as many as are counted, but for no more than the
unread bytes can hold. -/
def counted (part : Part) (item : Walk Cursor ε α) (count : UInt64) : Walk Meter ε (List α) := do
  let unread ← untallied Walk.remaining
  modify (·.note part fun _ => ⟨min count.toNat (unread / part.least), 0, 0⟩)
  rounds part item count.toNat

def walk : Walk Meter TransactionError Transaction := do
  let version ← untallied (Walk.u32.mapFault .version)
  let inputCount ← untallied (Walk.compactSize.mapFault .codec)
  let inputs ← counted .inputs Input.walk inputCount
  let outputCount ← untallied (Walk.compactSize.mapFault .codec)
  let outputs ← counted .outputs Output.walk outputCount
  let lockTime ← untallied (Walk.u32.mapFault .lockTime)
  pure ⟨version, inputs, outputs, lockTime⟩

/-- Exactly one transaction, with nothing behind it. -/
def walkWhole : Walk Meter TransactionError Transaction := do
  let tx ← walk
  let unread ← untallied Walk.remaining
  if unread = 0 then pure tx else throw (.fault (.trailingBytes unread))

/-- What comes of some bytes, and what it has cost. -/
def metered (bs : Bytes) : Except (Stop TransactionError) Transaction × Meter :=
  walkWhole.run (.start bs)

end Transaction

end CashWallet
