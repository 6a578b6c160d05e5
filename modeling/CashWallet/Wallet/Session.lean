import CashWallet.Wallet.Send

/-!
# Sessions of a wallet

A session is any sequence of calls to a wallet. Each call has an other side of its own, and the
reports of payments are plain values: a caller keeps all of them, as they were and as they became,
and may bring any of them back. A session therefore keeps, beside the wallet, the course that each
payment took and every report that was ever handed out, with the payment that it is about.
-/

namespace CashWallet

/-- The course that a payment takes, up to its end. -/
def Sending.course (payment : Sending α) : Exchange SendHistory := do
  match ← payment.run.run .start with
  | (.ok _, h) => return h
  | (.error fault, h) => return h.close fault

namespace Wallet

/-- All that a wallet tells of what it knows. -/
structure View where
  balance : UInt64
  unspents : List Unspent
  transactions : List HistoryEntry
  fees : Fees
  rateUsd : Binary64
  rateBch : Binary64

def view (w : Wallet) : View where
  balance := w.balance
  unspents := w.unspents
  transactions := w.transactions
  fees := w.fees
  rateUsd := w.rateUsd
  rateBch := w.rateBch

/-- What can be brought up to date on its own. -/
inductive Part where
  | balance
  | unspents
  | transactions
  | fees
  | rates
  deriving DecidableEq, Repr

/-- A reload of one part, without the value that it brings. -/
def reloadPart (w : Wallet) (part : Part) : Exchange (Except WalletError Unit × Wallet) := do
  match part with
  | .balance => let (result, w) ← w.reloadBalance; return (result.map fun _ => (), w)
  | .unspents => let (result, w) ← w.reloadUnspents; return (result.map fun _ => (), w)
  | .transactions => let (result, w) ← w.reloadTransactions; return (result.map fun _ => (), w)
  | .fees => let (result, w) ← w.reloadFees; return (result.map fun _ => (), w)
  | .rates => let (result, w) ← w.reloadRates; return (result.map fun _ => (), w)

/-- A wallet once the files of all wallets have become others. -/
def seeing (w : Wallet) (files : Entries) : Wallet :=
  match w.store with
  | .folder id _ => w.withStore (.folder id files)
  | _ => w

/-- What can be asked of a wallet. A report is named by its place among all that there are. -/
inductive Operation where
  | send (b : Broadcaster) (recipient : Address) (amount : UInt64)
  | sendCooperative (b : Broadcaster) (recipient : Address) (amount : UInt64)
  | checkConfirmation (place : Nat)
  | reload (part : Part)
  | cancelReloads
  | save

/-- An operation, and what its requests are answered. -/
structure Call where
  operation : Operation
  answer : List Request → Outcome

structure Session where
  wallet : Wallet
  /-- The courses of all payments, in order. -/
  courses : List SendHistory
  /-- All reports, each with the number of its payment. -/
  reports : List (Nat × SendReport)
  /-- The payments that have been found confirmed since the latest one was made, in order. -/
  confirmed : List Nat

namespace Session

def start (w : Wallet) : Session := ⟨w, [], [], []⟩

/-- A payment has been made. -/
def paid (s : Session) (course : SendHistory) :
    Except WalletError SendReport × Wallet → Session
  | (result, w) =>
    { wallet := w
      courses := s.courses ++ [course]
      reports := s.reports ++ (result.toOption.map (s.courses.length, ·)).toList
      confirmed := [] }

/-- A report has been checked; the caller has it as it was and as it is now. -/
def checked (s : Session) (number : Nat) (before : SendReport) :
    Except WalletError Bool × SendReport × Wallet → Session
  | (_, after, w) =>
    { s with
      wallet := w
      reports := s.reports ++ [(number, after)]
      confirmed :=
        if before.history.state ≠ .confirmed ∧ after.history.state = .confirmed then
          s.confirmed ++ [number]
        else s.confirmed }

def step (s : Session) (c : Call) : Session :=
  match c.operation with
  | .send b recipient amount =>
    s.paid ((s.wallet.sendLocal b recipient amount).course.run c.answer)
      ((s.wallet.send b recipient amount).run c.answer)
  | .sendCooperative b recipient amount =>
    s.paid ((s.wallet.sendDrafted b recipient amount).course.run c.answer)
      ((s.wallet.sendCooperative b recipient amount).run c.answer)
  | .checkConfirmation place =>
    match s.reports[place]? with
    | none => s
    | some (number, report) =>
      s.checked number report ((s.wallet.checkConfirmation report).run c.answer)
  | .reload part => { s with wallet := ((s.wallet.reloadPart part).run c.answer).2 }
  | .cancelReloads => { s with wallet := s.wallet.cancelReloads }
  | .save =>
    match s.wallet.save with
    | .ok w => { s with wallet := w }
    | .error _ => s

/-- The session after a sequence of calls. -/
def after (s : Session) (calls : List Call) : Session := calls.foldl step s

end Session

end Wallet

end CashWallet
