import CashWallet.Script.Basic

/-!
# Scripts that are written in place

Steps that append to one script. Where a step fails the script stays as far as it was written, so
the header of a push is made before any byte of the push is appended.
-/

namespace CashWallet

/-- Steps that write to a script and may fail. -/
abbrev Assembly := EStateM ScriptError Script

namespace Assembly

def write (bs : Bytes) : Assembly Unit :=
  modify fun s => ⟨s.bytes ++ bs⟩

/-- Write the shortest push of some data. -/
def push (data : Bytes) : Assembly Unit := do
  let header ← ofExcept (Chunk.pushHeader data.length)
  write header
  write data

/-- Write one push for each item, in order. -/
def pushAll (items : List Bytes) : Assembly Unit :=
  items.forM push

end Assembly

end CashWallet
