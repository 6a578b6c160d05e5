import CashWallet.Proofs.Results
import CashWallet.Wallet.Send

/-!
# The stages of a payment

A payment from the outputs that the wallet knows of is prepared without asking anybody: its
transaction is chosen, settled, built, signed and checked. Only then is it handed over, once. A
payment that is not prepared leaves the broadcaster alone.
-/

namespace CashWallet

namespace Sending

variable {α β : Type}

theorem run_bind (x : Sending α) (f : α → Sending β) (h : SendHistory) :
    (x >>= f).run.run h = (x.run.run h).bind fun r =>
      match r with
      | (.ok a, h) => (f a).run.run h
      | (.error fault, h) => .done (.error fault, h) := by
  change Exchange.bind _ _ = Exchange.bind _ _
  congr 1
  funext r
  obtain ⟨result, h⟩ := r
  cases result <;> rfl

theorem run_check (result : Except TransactionError α) (f : α → Sending β) (h : SendHistory) :
    (check result >>= f).run.run h =
      match result with
      | .ok a => (f a).run.run h
      | .error fault => .done (.error (.transaction fault), h) := by
  rw [run_bind]
  cases result <;> rfl

/-- A stage that may follow is entered. -/
theorem run_advance {h : SendHistory} {next : SendState} (hnext : h.state.allows next = true)
    (f : Unit → Sending β) : (advance next >>= f).run.run h = (f ()).run.run (h.enter next) := by
  have hadvance : h.advance next = .ok (h.enter next) := by
    rw [SendHistory.advance, if_pos hnext]
  have hrun : (advance next).run.run h = .done (.ok (), h.enter next) := by
    have hget : (get : Sending SendHistory).run.run h = .done (.ok h, h) := rfl
    rw [advance, run_bind, hget, Exchange.bind_done]
    simp only [hadvance]
    rfl
  rw [run_bind, hrun]
  rfl

theorem run_lift (x : Exchange α) (h : SendHistory) :
    ((x : StateT SendHistory Exchange α) : Sending α).run.run h = x.bind fun a => .done (.ok a, h) := by
  change (x.bind fun a => .done (a, h)).bind (fun r => .done (Except.ok r.1, r.2)) = _
  rw [Exchange.bind_assoc]
  rfl

theorem run_ask (x : Exchange (Except LedgerError α)) (f : α → Sending β) (h : SendHistory) :
    (ask x >>= f).run.run h = x.bind fun reply =>
      match reply with
      | .ok a => (f a).run.run h
      | .error fault => .done (.error (.ledger fault), h) := by
  unfold ask
  rw [run_bind, run_bind, run_lift, Exchange.bind_assoc, Exchange.bind_assoc]
  congr 1
  funext reply
  cases reply <;> rfl

end Sending

namespace SendHistory

/-- The stages up to the choice of what is spent. -/
def selected : SendHistory := start.enter .selected

def built : SendHistory := selected.enter .built

def signed : SendHistory := built.enter .signed

def submitted : SendHistory := signed.enter .submitted

end SendHistory

/-- What a payment is made of when it is handed over. -/
structure Prepared where
  selection : Selection
  change : Change
  unsigned : UnsignedTransaction
  signed : SignedTransaction

namespace Wallet

/-- Everything that a payment does before it is handed over. A fault comes with the stages that were
reached. -/
def prepare (w : Wallet) (recipient : Address) (amount : UInt64) :
    Except (TransactionError × SendHistory) Prepared := do
  let selection ← (w.selector.select w.unspents amount).mapError (·, .start)
  let change ← (Change.settle selection.total amount selection.fee
    w.config.dustThreshold).mapError (·, .selected)
  let unsigned ← (({} : Builder).build (w.destinations recipient amount change.value)
    selection.chosen).mapError (·, .selected)
  (checkFee unsigned change.fee).mapError (·, .selected)
  let signed ← (unsigned.sign [w.key] w.config.digestAlgorithm).mapError (·, .built)
  signed.verify.mapError (·, .built)
  return ⟨selection, change, unsigned, signed⟩

/-- The report of a payment that was handed over and taken. -/
def report (p : Prepared) (txid : String) : SendReport :=
  ⟨txid, p.change.fee, p.change.value, some p.signed.transaction.toHex, .submitted⟩

/-- A payment is prepared and then handed over. -/
theorem sendLocal_run (w : Wallet) (b : Broadcaster) (recipient : Address) (amount : UInt64) :
    (w.sendLocal b recipient amount).run.run .start =
      match w.prepare recipient amount with
      | .error (fault, h) => .done (.error (.transaction fault), h)
      | .ok p => (b.broadcast p.signed.transaction.toHex).bind fun reply =>
        .done (reply.mapError .ledger |>.map
          fun txid => (txid, p.change, some p.signed.transaction.toHex), .submitted) := by
  unfold sendLocal prepare
  rw [Sending.run_check]
  cases w.selector.select w.unspents amount with
  | error fault => rfl
  | ok selection =>
  rw [Results.mapError_ok_bind]
  dsimp only
  rw [Sending.run_advance rfl, Sending.run_check]
  cases Change.settle selection.total amount selection.fee w.config.dustThreshold with
  | error fault => rfl
  | ok change =>
  rw [Results.mapError_ok_bind]
  dsimp only
  rw [Sending.run_check]
  cases ({} : Builder).build (w.destinations recipient amount change.value) selection.chosen with
  | error fault => rfl
  | ok unsigned =>
  rw [Results.mapError_ok_bind]
  dsimp only
  rw [Sending.run_check]
  cases checkFee unsigned change.fee with
  | error fault => rfl
  | ok _ =>
  rw [Results.mapError_ok_bind]
  dsimp only
  rw [Sending.run_advance rfl, Sending.run_check]
  cases unsigned.sign [w.key] w.config.digestAlgorithm with
  | error fault => rfl
  | ok signed =>
  rw [Results.mapError_ok_bind]
  dsimp only
  rw [Sending.run_check]
  cases signed.verify with
  | error fault => rfl
  | ok _ =>
  rw [Results.mapError_ok_bind]
  dsimp only
  rw [Sending.run_advance rfl, Sending.run_advance rfl, Sending.run_ask]
  change _ = (b.broadcast signed.transaction.toHex).bind _
  congr 1
  funext reply
  cases reply <;> rfl

/-- A payment asks the broadcaster once if it is prepared, and not at all if it is not. -/
theorem send_eq (w : Wallet) (b : Broadcaster) (recipient : Address) (amount : UInt64) :
    w.send b recipient amount =
      match w.prepare recipient amount with
      | .error (fault, h) =>
        .done (.error (.transaction fault), w.record (h.close (.transaction fault)))
      | .ok p => (b.broadcast p.signed.transaction.toHex).bind fun reply =>
        match reply with
        | .ok txid => .done (.ok (report p txid), w.record .submitted)
        | .error fault =>
          .done (.error (.ledger fault), w.record (SendHistory.submitted.close (.ledger fault))) := by
  unfold send complete
  rw [Exchange.bind_eq, sendLocal_run]
  cases w.prepare recipient amount with
  | error stopped => rfl
  | ok p =>
      dsimp only
      rw [Exchange.bind_assoc]
      congr 1
      funext reply
      cases reply <;> rfl

theorem prepare_eq_ok {w : Wallet} {recipient : Address} {amount : UInt64} {p : Prepared}
    (h : w.prepare recipient amount = .ok p) :
    w.selector.select w.unspents amount = .ok p.selection ∧
      Change.settle p.selection.total amount p.selection.fee w.config.dustThreshold =
        .ok p.change ∧
      ({} : Builder).build (w.destinations recipient amount p.change.value) p.selection.chosen =
        .ok p.unsigned ∧
      p.unsigned.sign [w.key] w.config.digestAlgorithm = .ok p.signed := by
  simp only [prepare, Results.bind_eq_ok_iff, Results.mapError_eq_ok_iff] at h
  obtain ⟨selection, hselection, change, hchange, unsigned, hunsigned, -, -, signed, hsigned, -, -,
    hp⟩ := h
  cases hp
  exact ⟨hselection, hchange, hunsigned, hsigned⟩

/-- Where the preparation of a payment stops, with which fault and after which stages. -/
inductive Stops (w : Wallet) (recipient : Address) (amount : UInt64) :
    TransactionError → SendHistory → Prop
  | choosing {fault} (stop : w.selector.select w.unspents amount = .error fault) :
      Stops w recipient amount fault .start
  | settling {selection fault} (chosen : w.selector.select w.unspents amount = .ok selection)
      (stop : Change.settle selection.total amount selection.fee w.config.dustThreshold =
        .error fault) :
      Stops w recipient amount fault .selected
  | building {selection change fault} (chosen : w.selector.select w.unspents amount = .ok selection)
      (settled : Change.settle selection.total amount selection.fee w.config.dustThreshold =
        .ok change)
      (stop : ({} : Builder).build (w.destinations recipient amount change.value)
        selection.chosen = .error fault) :
      Stops w recipient amount fault .selected
  | balancing {selection change unsigned fault}
      (chosen : w.selector.select w.unspents amount = .ok selection)
      (settled : Change.settle selection.total amount selection.fee w.config.dustThreshold =
        .ok change)
      (built : ({} : Builder).build (w.destinations recipient amount change.value)
        selection.chosen = .ok unsigned)
      (stop : checkFee unsigned change.fee = .error fault) :
      Stops w recipient amount fault .selected
  | signing {unsigned fault}
      (stop : UnsignedTransaction.sign unsigned [w.key] w.config.digestAlgorithm = .error fault) :
      Stops w recipient amount fault .built
  | checking {signed fault} (stop : SignedTransaction.verify signed = .error fault) :
      Stops w recipient amount fault .built

theorem stops_of_prepare {w : Wallet} {recipient : Address} {amount : UInt64}
    {fault : TransactionError} {reached : SendHistory}
    (h : w.prepare recipient amount = .error (fault, reached)) :
    w.Stops recipient amount fault reached := by
  unfold prepare at h
  rcases Results.mapError_bind_eq_error_iff.1 h with ⟨_, hstop, heq⟩ | ⟨selection, hchosen, h⟩
  · cases heq
    exact .choosing hstop
  rcases Results.mapError_bind_eq_error_iff.1 h with ⟨_, hstop, heq⟩ | ⟨change, hsettled, h⟩
  · cases heq
    exact .settling hchosen hstop
  rcases Results.mapError_bind_eq_error_iff.1 h with ⟨_, hstop, heq⟩ | ⟨unsigned, hbuilt, h⟩
  · cases heq
    exact .building hchosen hsettled hstop
  rcases Results.mapError_bind_eq_error_iff.1 h with ⟨_, hstop, heq⟩ | ⟨_, -, h⟩
  · cases heq
    exact .balancing hchosen hsettled hbuilt hstop
  rcases Results.mapError_bind_eq_error_iff.1 h with ⟨_, hstop, heq⟩ | ⟨signed, -, h⟩
  · cases heq
    exact .signing hstop
  rcases Results.mapError_bind_eq_error_iff.1 h with ⟨_, hstop, heq⟩ | ⟨_, -, h⟩
  · cases heq
    exact .checking hstop
  · cases h

end Wallet

end CashWallet
