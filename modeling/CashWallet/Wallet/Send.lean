import CashWallet.Ledger.Broadcaster
import CashWallet.Wallet.Basic
import CashWallet.Wallet.Change

/-!
# Payments

A payment is made from the outputs that the wallet knows of, or it is built by the backend. Either
way it goes through its stages one by one, is submitted at most once, and leaves its course with the
wallet.
-/

namespace CashWallet

/-- What a payment comes to that the network took. -/
structure SendReport where
  txid : String
  /-- What was paid for the transaction, change that was too small included. -/
  fee : UInt64
  change : UInt64
  /-- The transaction, unless the backend built it. -/
  raw : Option String
  history : SendHistory

/-- What a step of a payment does: it may ask, it goes on with the course of the payment, and it may
end it by a fault. -/
abbrev Sending := ExceptT WalletError (StateT SendHistory Exchange)

namespace Sending

def advance (next : SendState) : Sending Unit := do
  let h ← get
  match h.advance next with
  | .ok h => set h
  | .error fault => throw fault

def check (result : Except TransactionError α) : Sending α :=
  match result with
  | .ok a => pure a
  | .error fault => throw (.transaction fault)

def ask (x : Exchange (Except LedgerError α)) : Sending α := do
  match ← (x : StateT SendHistory Exchange _) with
  | .ok a => pure a
  | .error fault => throw (.ledger fault)

end Sending

namespace Wallet

/-- Remember the course of a payment. -/
def record (w : Wallet) (h : SendHistory) : Wallet :=
  { w with lastSend := some h }

/-- Sign digests that a backend handed out. -/
def signDigests (w : Wallet) (digests : List String) : Except TransactionError DraftSignatures :=
  w.key.signDigests digests

/-- Whom a payment pays: the recipient, and the wallet itself if there is change. -/
def destinations (w : Wallet) (recipient : Address) (amount change : UInt64) : List Destination :=
  ⟨recipient, amount⟩ :: if 0 < change then [⟨w.address, change⟩] else []

/-- A transaction that was built must pay the fee that was settled. -/
def checkFee (u : UnsignedTransaction) (fee : UInt64) : Except TransactionError Unit :=
  if u.fee? = some fee then .ok () else .error (.feeChanged u.fee? fee)

def sendLocal (w : Wallet) (b : Broadcaster) (recipient : Address) (amount : UInt64) :
    Sending (String × Change × Option String) := do
  let selection ← Sending.check (w.selector.select w.unspents amount)
  Sending.advance .selected
  let change ← Sending.check
    (Change.settle selection.total amount selection.fee w.config.dustThreshold)
  let unsigned ← Sending.check
    (({} : Builder).build (w.destinations recipient amount change.value) selection.chosen)
  Sending.check (checkFee unsigned change.fee)
  Sending.advance .built
  let signed ← Sending.check (unsigned.sign [w.key] w.config.digestAlgorithm)
  Sending.check signed.verify
  Sending.advance .signed
  Sending.advance .submitted
  let raw := signed.transaction.toHex
  let txid ← Sending.ask (b.broadcast raw)
  return (txid, change, some raw)

def sendDrafted (w : Wallet) (b : Broadcaster) (recipient : Address) (amount : UInt64) :
    Sending (String × Change × Option String) := do
  if amount = 0 then throw (.transaction .zeroAmount)
  let draft ← Sending.ask (b.createDraft w.address recipient amount)
  Sending.advance .selected
  Sending.advance .built
  let signatures ← Sending.check (w.signDigests draft.digests)
  Sending.advance .signed
  Sending.advance .submitted
  let txid ← Sending.ask (b.submitDraft draft signatures)
  return (txid, ⟨draft.fee, 0⟩, none)

/-- Make a payment and remember its course, whatever becomes of it. -/
def complete (w : Wallet) (payment : Sending (String × Change × Option String)) :
    Exchange (Except WalletError SendReport × Wallet) := do
  match ← payment.run.run .start with
  | (.ok (txid, change, raw), h) =>
    return (.ok ⟨txid, change.fee, change.value, raw, h⟩, w.record h)
  | (.error fault, h) => return (.error fault, w.record (h.close fault))

/-- Pay an amount from the outputs that the wallet knows of. -/
def send (w : Wallet) (b : Broadcaster) (recipient : Address) (amount : UInt64) :
    Exchange (Except WalletError SendReport × Wallet) :=
  w.complete (w.sendLocal b recipient amount)

/-- Pay an amount by a transaction that the backend builds. -/
def sendCooperative (w : Wallet) (b : Broadcaster) (recipient : Address) (amount : UInt64) :
    Exchange (Except WalletError SendReport × Wallet) :=
  w.complete (w.sendDrafted b recipient amount)

/-- An entry of the history confirms a transaction. -/
def confirms (txid : String) (e : HistoryEntry) : Bool :=
  e.hash.toList.map Char.toLower == txid.toList.map Char.toLower && 0 < e.confirmations

/-- Look for a payment in the history that the backend tells, and confirm it if it is there with a
confirmation. A payment that is confirmed already is not looked for. -/
def checkConfirmation (w : Wallet) (report : SendReport) :
    Exchange (Except WalletError Bool × SendReport × Wallet) := do
  if report.history.state = .confirmed then return (.ok true, report, w)
  match ← w.reloadTransactions with
  | (.error fault, w) => return (.error fault, report, w)
  | (.ok entries, w) =>
    if entries.any (confirms report.txid) then
      match report.history.advance .confirmed with
      | .ok h => return (.ok true, { report with history := h }, w.record h)
      | .error fault => return (.error fault, report, w)
    else return (.ok false, report, w)

end Wallet

end CashWallet
