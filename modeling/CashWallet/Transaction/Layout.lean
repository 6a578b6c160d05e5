import CashWallet.Bytes.Layout
import CashWallet.Transaction.Basic

/-!
# How a transaction lies in bytes

A layout is a transaction with the form of each of its counts: the number of inputs, the number of
outputs, and the length of every script. It tells the bytes, and nothing else about them is left
open.
-/

namespace CashWallet

open CompactSize (Form)

structure InputLayout where
  outpoint : Outpoint
  script : Counted UInt8
  sequence : UInt32

namespace InputLayout

def input (l : InputLayout) : Input :=
  ⟨l.outpoint, ⟨l.script.items⟩, l.sequence⟩

def bytes (l : InputLayout) : Bytes :=
  l.outpoint.encode ++ l.script.script ++ Endian.toLittle 4 l.sequence.toNat

def shortened (l : InputLayout) : InputLayout :=
  { l with script := l.script.shortened }

end InputLayout

structure OutputLayout where
  value : UInt64
  script : Counted UInt8

namespace OutputLayout

def output (l : OutputLayout) : Output :=
  ⟨l.value, ⟨l.script.items⟩⟩

def bytes (l : OutputLayout) : Bytes :=
  Endian.toLittle 8 l.value.toNat ++ l.script.script

def shortened (l : OutputLayout) : OutputLayout :=
  { l with script := l.script.shortened }

end OutputLayout

structure TransactionLayout where
  version : UInt32
  inputs : Counted InputLayout
  outputs : Counted OutputLayout
  lockTime : UInt32

namespace TransactionLayout

def transaction (l : TransactionLayout) : Transaction where
  version := l.version
  inputs := l.inputs.items.map InputLayout.input
  outputs := l.outputs.items.map OutputLayout.output
  lockTime := l.lockTime

def bytes (l : TransactionLayout) : Bytes :=
  Endian.toLittle 4 l.version.toNat ++ l.inputs.bytes InputLayout.bytes ++
    l.outputs.bytes OutputLayout.bytes ++ Endian.toLittle 4 l.lockTime.toNat

/-- All compact-size integers of a layout, in the order in which they lie in its bytes. -/
def counts (l : TransactionLayout) : List Form :=
  l.inputs.count :: l.inputs.items.map (·.script.count) ++
    l.outputs.count :: l.outputs.items.map (·.script.count)

/-- The same transaction with all counts in their shortest forms. -/
def shortened (l : TransactionLayout) : TransactionLayout where
  version := l.version
  inputs := (l.inputs.map InputLayout.shortened).shortened
  outputs := (l.outputs.map OutputLayout.shortened).shortened
  lockTime := l.lockTime

end TransactionLayout

end CashWallet
