import CashWallet.Number.Saturating
import CashWallet.Wallet.Error

/-!
# Change

What the chosen outputs hold beyond payment and fee goes back to the wallet. Change that is too
small to be worth an output is left to the fee.
-/

namespace CashWallet

/-- The fee that is paid and the change that comes back. -/
structure Change where
  fee : UInt64
  value : UInt64
  deriving DecidableEq, Repr

/-- Split a total between a payment, a fee and change. -/
def Change.settle (total amount fee dust : UInt64) : Except TransactionError Change :=
  match (checkedAdd? amount fee).bind (checkedSub? total) with
  | none => .error (.insufficientFunds (satAdd amount fee) total)
  | some value => .ok (if value < dust then ⟨fee + value, 0⟩ else ⟨fee, value⟩)

end CashWallet
