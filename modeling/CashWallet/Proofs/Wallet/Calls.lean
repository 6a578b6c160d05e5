import CashWallet.Proofs.Wallet.Reloads
import Mathlib.Logic.Relation

/-!
# What a call does to a wallet

A reload writes the store under keys of the cache and leaves the rest of the wallet alone. A payment
changes nothing but the course that the wallet remembers, and that is the course which the payment
took, whether it was taken or not. A check of a report is a reload, and remembers the course of the
report if it is confirmed for the first time. This is all that a call can do to a session.
-/

namespace CashWallet

/-- What a store becomes by writes under keys of the cache. -/
def CacheStore.Written : CacheStore → CacheStore → Prop :=
  Relation.ReflTransGen fun s s' => ∃ key bytes, s.set (CacheKey.name key) bytes = .ok s'

namespace Wallet

/-- A wallet of which at most the ledger state has changed, its store by writes under keys. -/
structure Updated (w w' : Wallet) : Prop where
  written : w.store.Written w'.store
  onlyLedger : w' = { w with ledger := w'.ledger }

variable {w w₁ w' : Wallet}

namespace Updated

theorem refl (w : Wallet) : Updated w w :=
  ⟨.refl, rfl⟩

theorem trans (h : Updated w w₁) (h' : Updated w₁ w') : Updated w w' := by
  constructor
  · exact Relation.ReflTransGen.trans h.written h'.written
  · rw [h'.onlyLedger, h.onlyLedger]

theorem lastSend_eq (h : Updated w w') : w'.lastSend = w.lastSend := by
  rw [h.onlyLedger]

end Updated

/-- The values of a fetch are written under a key of the cache. -/
def WritesKeys {α : Type} (s : CacheStore) (write : α → Except LedgerError CacheStore) : Prop :=
  ∀ value s', write value = .ok s' → ∃ key bytes, s.set (CacheKey.name key) bytes = .ok s'

theorem Reloaded.updated {α : Type} {write : α → Except LedgerError CacheStore}
    {result : Except WalletError α} (h : Reloaded write w result w')
    (hwrite : WritesKeys w.store write) : Updated w w' := by
  refine ⟨?_, h.onlyLedger⟩
  have hsettled := h.settled
  generalize w'.store = s' at hsettled ⊢
  cases hsettled with
  | kept fault => exact .refl
  | written hvalue => exact .single (hwrite _ _ hvalue)

theorem reload_updated {α : Type} (w : Wallet) (f : Fetch α) :
    (w.reload f).Ends fun r => Updated w r.2 :=
  (w.reload_reloaded f).imp fun _ h => h.updated fun _ _ hwrite => ⟨_, _, hwrite⟩

theorem reloadFees_updated (w : Wallet) : w.reloadFees.Ends fun r => Updated w r.2 :=
  (reloadMarket_reloaded (w.market.fetchFees_settled w.store)).imp fun _ h =>
    h.updated fun _ _ hwrite => ⟨_, _, hwrite⟩

/-- The rates are reloaded one after the other, so what each of the two reloads does to a wallet is
put together. -/
theorem reloadRates_chain {R : Wallet → Wallet → Prop}
    (husd : ∀ w result w', Reloaded (w.store.storeRate .rateUsd Market.backendName) w result w' →
      R w w')
    (hbch : ∀ w result w', Reloaded (w.store.storeRate .rateBch Market.backendName) w result w' →
      R w w')
    (htrans : ∀ {w w₁ w₂}, R w w₁ → R w₁ w₂ → R w w₂) (w : Wallet) :
    w.reloadRates.Ends fun r => R w r.2 := by
  refine (reloadMarket_reloaded (w.market.fetchUsd_settled w.store)).bind ?_
  rintro ⟨result, w₁⟩ h₁
  have hw₁ := husd w result w₁ h₁
  cases result with
  | error fault => exact Exchange.ends_done hw₁
  | ok usd =>
      refine (reloadMarket_reloaded (w₁.market.fetchBch_settled w₁.store)).bind ?_
      rintro ⟨result, w₂⟩ h₂
      have hw₂ := htrans hw₁ (hbch w₁ result w₂ h₂)
      cases result with
      | error fault => exact Exchange.ends_done hw₂
      | ok bch => exact Exchange.ends_done hw₂

theorem reloadRates_updated (w : Wallet) : w.reloadRates.Ends fun r => Updated w r.2 := by
  apply reloadRates_chain
  · exact fun _ _ _ h => h.updated fun _ _ hwrite => ⟨_, _, hwrite⟩
  · exact fun _ _ _ h => h.updated fun _ _ hwrite => ⟨_, _, hwrite⟩
  · exact Updated.trans

theorem reloadPart_updated (w : Wallet) (part : Part) :
    (w.reloadPart part).Ends fun r => Updated w r.2 := by
  cases part with
  | balance => exact ends_reload (w.reload_updated _)
  | unspents => exact ends_reload (w.reload_updated _)
  | transactions => exact ends_reload (w.reload_updated _)
  | fees => exact ends_reload w.reloadFees_updated
  | rates => exact ends_reload w.reloadRates_updated

theorem save_updated (h : w.save = .ok w') : Updated w w' := by
  obtain ⟨stored, hstored, heq⟩ := Results.bind_eq_ok_iff.1 h
  cases heq
  exact ⟨.single ⟨.wif, _, Results.mapError_eq_ok_iff.1 hstored⟩, rfl⟩

theorem cancelReloads_updated (w : Wallet) : Updated w w.cancelReloads :=
  ⟨.refl, rfl⟩

/-! ## Payments and their reports -/

/-- A payment leaves its course with the wallet, and with the report if it was taken. -/
theorem complete_run (w : Wallet) (payment : Sending (String × Change × Option String))
    (answer : List Request → Outcome) :
    ((w.complete payment).run answer).2 = w.record (payment.course.run answer) ∧
      ∀ report, ((w.complete payment).run answer).1 = .ok report →
        report.history = payment.course.run answer := by
  unfold complete Sending.course Exchange.run
  simp only [Exchange.bind_eq, Exchange.runFrom_bind]
  generalize Exchange.runFrom answer [] (payment.run.run .start) = r
  obtain ⟨⟨fault⟩ | ⟨txid, change, raw⟩, h⟩ := r
  · exact ⟨rfl, nofun⟩
  · refine ⟨rfl, ?_⟩
    rintro _ ⟨⟩
    rfl

/-- What becomes of a report that is checked, and of the wallet. -/
inductive Checked (w : Wallet) (report : SendReport) : SendReport → Wallet → Prop
  | kept {w' : Wallet} (h : Updated w w') : Checked w report report w'
  | confirmed {w' : Wallet} {history : SendHistory} (h : Updated w w')
      (hadvance : report.history.advance .confirmed = .ok history) :
      Checked w report { report with history } (w'.record history)

theorem checkConfirmation_checked (w : Wallet) (report : SendReport) :
    (w.checkConfirmation report).Ends fun r => Checked w report r.2.1 r.2.2 := by
  unfold checkConfirmation
  split
  · exact Exchange.ends_done (.kept (.refl w))
  · refine (w.reload_updated _).bind ?_
    rintro ⟨result, w'⟩ hw'
    cases result with
    | error fault => exact Exchange.ends_done (.kept hw')
    | ok entries =>
        dsimp only
        split
        · split
          · next hadvance => exact Exchange.ends_done (.confirmed hw' hadvance)
          · exact Exchange.ends_done (.kept hw')
        · exact Exchange.ends_done (.kept hw')

/-! ## One call of a session -/

namespace Session

/-- Everything that a call can do to a session. -/
inductive Moves (s : Session) : Session → Prop
  | updated {w : Wallet} (hw : Updated s.wallet w) : Moves s { s with wallet := w }
  | paid {course : SendHistory} {result : Except WalletError SendReport}
      (hreport : ∀ report, result = .ok report → report.history = course) :
      Moves s (s.paid course (result, s.wallet.record course))
  | checked {number : Nat} {report report' : SendReport} {result : Except WalletError Bool}
      {w : Wallet} (hmem : (number, report) ∈ s.reports)
      (hchecked : Checked s.wallet report report' w) :
      Moves s (s.checked number report (result, report', w))

theorem moves_paid (s : Session) (payment : Sending (String × Change × Option String))
    (answer : List Request → Outcome) :
    Moves s (s.paid (payment.course.run answer) ((s.wallet.complete payment).run answer)) := by
  obtain ⟨hwallet, hreport⟩ := s.wallet.complete_run payment answer
  generalize (s.wallet.complete payment).run answer = r at hwallet hreport ⊢
  obtain ⟨result, w⟩ := r
  cases hwallet
  exact .paid hreport

theorem step_moves (s : Session) (c : Call) : Moves s (s.step c) := by
  obtain ⟨operation, answer⟩ := c
  cases operation with
  | send b recipient amount => exact s.moves_paid (s.wallet.sendLocal b recipient amount) answer
  | sendCooperative b recipient amount =>
      exact s.moves_paid (s.wallet.sendDrafted b recipient amount) answer
  | checkConfirmation place =>
      unfold step
      dsimp only
      split
      · exact .updated (.refl s.wallet)
      · next hplace =>
          exact .checked (List.mem_of_getElem? hplace)
            (s.wallet.checkConfirmation_checked _ answer [])
  | reload part => exact .updated (s.wallet.reloadPart_updated part answer [])
  | cancelReloads => exact .updated s.wallet.cancelReloads_updated
  | save =>
      unfold step
      dsimp only
      split
      · next hsave => exact .updated (save_updated hsave)
      · exact .updated (.refl s.wallet)

/-- Apart from the course that the wallet remembers, a call brings it up to date at most. -/
theorem Moves.exists_updated {s s' : Session} (h : Moves s s') :
    ∃ w lastSend, Updated s.wallet w ∧ s'.wallet = { w with lastSend } := by
  cases h with
  | updated hw => exact ⟨_, _, hw, rfl⟩
  | paid _ => exact ⟨_, _, .refl s.wallet, rfl⟩
  | checked _ hchecked =>
      cases hchecked with
      | kept hw => exact ⟨_, _, hw, rfl⟩
      | confirmed hw _ => exact ⟨_, _, hw, rfl⟩

/-- A call writes the store under keys of the cache, if at all. -/
theorem Moves.written {s s' : Session} (h : Moves s s') :
    s.wallet.store.Written s'.wallet.store := by
  obtain ⟨w, lastSend, hw, heq⟩ := h.exists_updated
  rw [heq]
  exact hw.written

end Session

end Wallet

end CashWallet
