import CashWallet.Number.Saturating

/-!
# Fees

The size of a transaction is estimated as linear in the number of inputs and outputs; the fee is a
rate times the size.
-/

namespace CashWallet

structure SizeModel where
  base : UInt64
  perInput : UInt64
  perOutput : UInt64
  deriving DecidableEq, Repr

namespace SizeModel

/-- Inputs without their scripts. -/
def standard : SizeModel := ⟨10, 74, 34⟩

/-- Inputs with the scripts that unlock payments to key hashes. -/
def payToKeyHash : SizeModel := ⟨10, 148, 34⟩

instance : Inhabited SizeModel := ⟨standard⟩

def estimate (m : SizeModel) (inputs outputs : Nat) : UInt64 :=
  satAdd (satAdd m.base (satMul m.perInput inputs)) (satMul m.perOutput outputs)

def fee (m : SizeModel) (rate : UInt64) (inputs outputs : Nat) : UInt64 :=
  satMul rate (m.estimate inputs outputs).toNat

end SizeModel

end CashWallet
