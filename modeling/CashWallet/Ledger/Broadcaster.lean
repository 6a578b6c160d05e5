import CashWallet.Ledger.Submission

/-!
# Broadcasters

Who takes transactions: a backend, or nobody but the wallet itself.
-/

namespace CashWallet

structure Broadcaster where
  /-- Submit a signed transaction; the answer is its id. -/
  broadcast : String → Exchange (Except LedgerError String)
  createDraft : Address → Address → UInt64 → Exchange (Except LedgerError Draft)
  submitDraft : Draft → DraftSignatures → Exchange (Except LedgerError String)

namespace Broadcaster

/-- The endpoints of a backend. -/
def remote (c : LedgerClient) : Broadcaster where
  broadcast := c.push
  createDraft := c.newDraft
  submitDraft := c.sendDraft

/-- Take every transaction under its own id, and ask nobody. -/
def accepting : Broadcaster where
  broadcast raw :=
    .done ((Transaction.ofHex raw).map (fun tx => tx.id.toHex) |>.mapError .transaction)
  createDraft _ _ _ := .done (.error (.unsupported "local" "create draft"))
  submitDraft _ _ := .done (.error (.unsupported "local" "submit draft"))

end Broadcaster

end CashWallet
