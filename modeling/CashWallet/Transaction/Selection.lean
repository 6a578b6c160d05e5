import CashWallet.Transaction.Basic
import CashWallet.Transaction.Fee

/-!
# Choosing what to spend

Outputs are taken by descending value, equal ones in their order, until they cover the target and
the fee for as many inputs. Whether all outputs together suffice is checked first, with the fee for
all of them.
-/

namespace CashWallet

/-- The outputs chosen to fund a payment, and the fee for spending them. -/
structure Selection where
  chosen : List Unspent
  fee : UInt64
  deriving DecidableEq, Repr

def Selection.total (s : Selection) : UInt64 :=
  Unspent.total s.chosen

structure Selector where
  feePerByte : UInt64
  sizeModel : SizeModel
  deriving DecidableEq, Repr

namespace Selector

/-- A payment and its change. -/
def outputCount : Nat := 2

/-- The fee for some inputs and both outputs. -/
def feeFor (s : Selector) (inputs : Nat) : UInt64 :=
  s.sizeModel.fee s.feePerByte inputs outputCount

/-- By descending value; equal values keep their order. -/
def byValue (candidates : List Unspent) : List Unspent :=
  candidates.mergeSort fun a b => b.value ≤ a.value

/-- Take outputs off the front until the target and the fee are covered. -/
def take? (s : Selector) (target : UInt64) (taken : List Unspent) (total : UInt64) :
    List Unspent → Option Selection
  | [] => none
  | u :: rest =>
    let taken := taken ++ [u]
    let total := satAdd total u.value
    let fee := s.feeFor taken.length
    if satAdd target fee ≤ total then some ⟨taken, fee⟩
    else take? s target taken total rest

def select (s : Selector) (candidates : List Unspent) (target : UInt64) :
    Except TransactionError Selection :=
  if target = 0 then .error .zeroAmount
  else
    let available := Unspent.total candidates
    let required := satAdd target (s.feeFor candidates.length)
    if available < required then .error (.insufficientFunds required available)
    else
      let ordered := byValue candidates
      match s.take? target [] 0 ordered with
      | some selection => .ok selection
      | none => .error (.insufficientFunds required (Unspent.total ordered))

end Selector

end CashWallet
