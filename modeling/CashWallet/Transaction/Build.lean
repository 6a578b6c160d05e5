import CashWallet.Address
import CashWallet.Transaction.Basic

/-!
# Building transactions

One input for each output to spend and one output for each destination, in the order given. An
unsigned transaction comes with the outputs that its inputs spend, since signing needs their
scripts and values.
-/

namespace CashWallet

structure UnsignedTransaction where
  transaction : Transaction
  spent : List Output
  length_spent : spent.length = transaction.inputs.length

/-- An amount and who is to have it. -/
structure Destination where
  address : Address
  value : UInt64

namespace UnsignedTransaction

/-- Pair a transaction with the outputs that its inputs spend. -/
def ofParts (transaction : Transaction) (spent : List Output) :
    Except TransactionError UnsignedTransaction :=
  if h : spent.length = transaction.inputs.length then .ok ⟨transaction, spent, h⟩
  else .error (.spentCount transaction.inputs.length spent.length)

def inputTotal (u : UnsignedTransaction) : UInt64 :=
  satSum (u.spent.map Output.value)

/-- What the inputs hold more than the outputs. -/
def fee? (u : UnsignedTransaction) : Option UInt64 :=
  checkedSub? u.inputTotal u.transaction.outputTotal

end UnsignedTransaction

def Destination.output (d : Destination) : Output :=
  ⟨d.value, d.address.lock⟩

/-- The version and the lock time of the transactions it builds. -/
structure Builder where
  version : UInt32 := Transaction.defaultVersion
  lockTime : UInt32 := 0

namespace Builder

def transaction (b : Builder) (destinations : List Destination) (funds : List Unspent) :
    Transaction where
  version := b.version
  inputs := funds.map fun u => .unsigned u.outpoint
  outputs := destinations.map Destination.output
  lockTime := b.lockTime

def build (b : Builder) (destinations : List Destination) (funds : List Unspent) :
    Except TransactionError UnsignedTransaction :=
  if funds.isEmpty then .error .nothingToSpend
  else if destinations.isEmpty then .error .noDestinations
  else
    .ok ⟨b.transaction destinations funds, funds.map Unspent.output, by simp [transaction]⟩

end Builder

end CashWallet
