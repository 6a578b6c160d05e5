import CashWallet.Script.Basic

/-!
# What pushes leave on the stack

A script that does nothing but push is carried out chunk by chunk, and each chunk puts one item on
the stack: the data that it has, an empty item where its opcode is zero, or the number that its
opcode stands for. Limits on the size and the number of items are left out.
-/

namespace CashWallet

/-- The items on the stack, the top first. -/
abbrev Stack := List Bytes

namespace Opcode

def push0 : UInt8 := 0x00
def pushMinusOne : UInt8 := 0x4f
def push1 : UInt8 := 0x51

/-- The number that an opcode stands for, as an item: a byte with the sign in its highest bit. -/
def number? (op : UInt8) : Option Bytes :=
  if op = pushMinusOne then some [0x81]
  else if push1 ≤ op ∧ op ≤ push16 then some [op - push1 + 1]
  else none

end Opcode

namespace Chunk

/-- Pushes a number that its opcode stands for. -/
def isNumber (chunk : Chunk) : Bool :=
  (Opcode.number? chunk.opcode).isSome

/-- The item that a chunk puts on the stack, if that is all it does. -/
def item? (chunk : Chunk) : Option Bytes :=
  match chunk.data with
  | some data => some data
  | none => if chunk.opcode = Opcode.push0 then some [] else Opcode.number? chunk.opcode

end Chunk

/-- Carry out chunks one after the other, as long as they push. -/
def Stack.run? (stack : Stack) : List Chunk → Option Stack
  | [] => some stack
  | chunk :: rest => chunk.item?.bind fun item => run? (item :: stack) rest

/-- The stack that a script leaves if it starts on an empty one and does nothing but push. -/
def Script.execute? (s : Script) : Option Stack :=
  s.chunks.toOption.bind (Stack.run? [])

end CashWallet
