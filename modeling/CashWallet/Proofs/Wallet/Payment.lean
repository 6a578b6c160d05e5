import CashWallet.Proofs.Bytes.HexText
import CashWallet.Proofs.Script.KeyHash
import CashWallet.Proofs.Transaction.Selection
import CashWallet.Proofs.Transaction.Signing
import CashWallet.Proofs.Transaction.WireForm
import CashWallet.Proofs.Wallet.Stages

/-!
# Payments balance

What a payment hands over reads back as a transaction that spends what was chosen, pays the amount
to the recipient and the change to the wallet, and leaves the settled fee. Change and fee split what
the chosen outputs hold without loss, so that the transaction that was built always pays the fee.
-/

namespace CashWallet

open Results

namespace Change

variable {total amount fee dust : UInt64} {c : Change}

/-- Fee and change are what a total leaves of an amount; change below the threshold goes to the
fee. -/
theorem settle_eq_ok (h : settle total amount fee dust = .ok c) :
    ∃ rest : UInt64, amount.toNat + fee.toNat + rest.toNat = total.toNat ∧
      c.fee.toNat + c.value.toNat = fee.toNat + rest.toNat ∧
      (rest < dust ∧ c.value = 0 ∨ ¬ rest < dust ∧ c.value = rest) := by
  unfold settle at h
  cases hsub : (checkedAdd? amount fee).bind (checkedSub? total) with
  | none => rw [hsub] at h; cases h
  | some rest =>
      rw [hsub] at h
      obtain ⟨sum, hsum, hrest⟩ := Option.bind_eq_some_iff.1 hsub
      rw [checkedAdd?_eq_some_iff] at hsum
      rw [checkedSub?_eq_some_iff] at hrest
      have htotal : amount.toNat + fee.toNat + rest.toNat = total.toNat := by omega
      refine ⟨rest, htotal, ?_⟩
      by_cases hdust : rest < dust
      · dsimp only at h
        rw [if_pos hdust] at h
        cases h
        refine ⟨?_, Or.inl ⟨hdust, rfl⟩⟩
        have hbound := total.toNat_lt
        rw [UInt64.toNat_add, Nat.mod_eq_of_lt (by omega)]
        rfl
      · dsimp only at h
        rw [if_neg hdust] at h
        cases h
        exact ⟨rfl, Or.inr ⟨hdust, rfl⟩⟩

theorem settle_total (h : settle total amount fee dust = .ok c) :
    amount.toNat + c.fee.toNat + c.value.toNat = total.toNat := by
  obtain ⟨rest, htotal, hsplit, -⟩ := settle_eq_ok h
  omega

/-- The fee is raised only by change that is too small, so by less than the threshold. -/
theorem settle_fee (h : settle total amount fee dust = .ok c) :
    fee.toNat ≤ c.fee.toNat ∧ c.fee.toNat < fee.toNat + max dust.toNat 1 := by
  obtain ⟨rest, -, hsplit, ⟨hdust, hvalue⟩ | ⟨-, hvalue⟩⟩ := settle_eq_ok h
  · have hzero : c.value.toNat = 0 := by rw [hvalue]; rfl
    have hlt := UInt64.lt_iff_toNat_lt.1 hdust
    omega
  · rw [hvalue] at hsplit
    omega

theorem settle_dust (h : settle total amount fee dust = .ok c) (hpos : 0 < c.value) :
    dust ≤ c.value := by
  obtain ⟨rest, -, -, ⟨-, hvalue⟩ | ⟨hdust, hvalue⟩⟩ := settle_eq_ok h
  · rw [hvalue] at hpos
    exact absurd hpos (by decide)
  · rw [hvalue]
    exact UInt64.not_lt.1 hdust

theorem settle_keepsFee (total amount fee dust : UInt64) :
    FailsWith TransactionError.KeepsFee (settle total amount fee dust) := by
  unfold settle
  split
  · exact failsWith_error nofun
  · exact failsWith_ok _

end Change

theorem Selector.select_keepsFee (s : Selector) (candidates : List Unspent) (target : UInt64) :
    FailsWith TransactionError.KeepsFee (s.select candidates target) := by
  unfold select
  split
  · exact failsWith_error nofun
  dsimp only
  split
  · exact failsWith_error nofun
  split
  · exact failsWith_ok _
  · exact failsWith_error nofun

namespace Wallet

variable {w : Wallet} {recipient : Address} {amount : UInt64}

theorem destinations_ne_nil (w : Wallet) (recipient : Address) (amount change : UInt64) :
    w.destinations recipient amount change ≠ [] :=
  List.cons_ne_nil _ _

/-- The outputs of a payment: the amount for the recipient, and the change if there is any. -/
def outputs (w : Wallet) (recipient : Address) (amount change : UInt64) : List Output :=
  ⟨amount, recipient.lock⟩ :: if 0 < change then [⟨change, w.address.lock⟩] else []

theorem map_output_destinations (w : Wallet) (recipient : Address) (amount change : UInt64) :
    (w.destinations recipient amount change).map Destination.output =
      w.outputs recipient amount change := by
  unfold destinations outputs
  split <;> rfl

theorem sum_outputs (w : Wallet) (recipient : Address) (amount change : UInt64) :
    ((w.outputs recipient amount change).map fun o => o.value.toNat).sum =
      amount.toNat + change.toNat := by
  unfold outputs
  split
  · simp
  · next h =>
      have hzero : change.toNat = 0 := by
        have := UInt64.lt_iff_toNat_lt.not.1 h
        simpa using this
      simp [hzero]

/-- Building a payment succeeds, with one input for each output that was chosen. -/
theorem build_payment (w : Wallet) (recipient : Address) (amount change : UInt64)
    {selection : Selection} (hne : selection.chosen ≠ []) :
    ∃ u, ({} : Builder).build (w.destinations recipient amount change) selection.chosen = .ok u ∧
      u.transaction.inputs = selection.chosen.map (fun s => .unsigned s.outpoint) ∧
      u.transaction.outputs = w.outputs recipient amount change ∧
      u.spent = selection.chosen.map Unspent.output := by
  have hfunds : selection.chosen.isEmpty = false := by simpa using hne
  have hdestinations : (w.destinations recipient amount change).isEmpty = false := by
    simpa using w.destinations_ne_nil recipient amount change
  refine ⟨_, by rw [Builder.build, hfunds, hdestinations]; rfl, rfl, ?_, rfl⟩
  exact w.map_output_destinations recipient amount change

theorem script_mem_outputs {change : UInt64} {o : Output}
    (h : o ∈ w.outputs recipient amount change) : o.script.bytes.length = 25 := by
  unfold outputs at h
  rcases List.mem_cons.1 h with rfl | h
  · exact recipient.length_lock
  · split at h
    · rw [List.mem_singleton.1 h]
      exact w.address.length_lock
    · cases h

theorem length_outputs_le (w : Wallet) (recipient : Address) (amount change : UInt64) :
    (w.outputs recipient amount change).length ≤ 2 := by
  unfold outputs
  split <;> simp

/-- The fee of a transaction that was built is the one that was settled: no total on the way to it
is cut off. -/
theorem fee?_payment {selection : Selection} {change : Change} {u : UnsignedTransaction}
    {fee dust : UInt64} (hsettled : Change.settle selection.total amount fee dust = .ok change)
    (houtputs : u.transaction.outputs = w.outputs recipient amount change.value)
    (hspent : u.spent = selection.chosen.map Unspent.output) : u.fee? = some change.fee := by
  have htotal := Change.settle_total hsettled
  have hbound := selection.total.toNat_lt
  have hinputs : u.inputTotal = selection.total := by
    rw [UnsignedTransaction.inputTotal, hspent, List.map_map]
    rfl
  have hpaid : u.transaction.outputTotal.toNat = amount.toNat + change.value.toNat := by
    rw [Transaction.outputTotal, toNat_satSum, List.map_map, houtputs]
    have hsum := w.sum_outputs recipient amount change.value
    have hmax : maxAmount = 18446744073709551615 := rfl
    simp only [Function.comp_def, hsum]
    omega
  rw [UnsignedTransaction.fee?, checkedSub?_eq_some_iff, hinputs, hpaid]
  omega

/-- What a payment that was prepared hands over. -/
structure Pays (w : Wallet) (recipient : Address) (amount : UInt64) (selection : Selection)
    (change : Change) (tx : Transaction) : Prop where
  /-- No output that the wallet knows of is spent more often than it is known. -/
  chosen : selection.chosen.Subperm w.unspents
  inputs : tx.inputs.map Input.outpoint = selection.chosen.map Unspent.outpoint
  outputs : tx.outputs = w.outputs recipient amount change.value
  dust : 0 < change.value → w.config.dustThreshold ≤ change.value
  fee_le : selection.fee.toNat ≤ change.fee.toNat
  fee_lt : change.fee.toNat < selection.fee.toNat + max w.config.dustThreshold.toNat 1
  covered : amount.toNat + change.fee.toNat + change.value.toNat ≤
    (selection.chosen.map fun u => u.value.toNat).sum
  balanced : (selection.chosen.map fun u => u.value.toNat).sum < UInt64.size →
    (selection.chosen.map fun u => u.value.toNat).sum =
      amount.toNat + change.fee.toNat + change.value.toNat

theorem pays_of_prepare {p : Prepared} (h : w.prepare recipient amount = .ok p) :
    w.Pays recipient amount p.selection p.change p.signed.transaction := by
  obtain ⟨hselection, hchange, hbuild, hsign⟩ := prepare_eq_ok h
  obtain ⟨-, -, hne, -⟩ := Selector.select_eq_ok hselection
  obtain ⟨u, hu, hinputs, houtputs, -⟩ := w.build_payment recipient amount p.change.value hne
  cases Except.ok.inj (hbuild.symm.trans hu)
  have hbody := (UnsignedTransaction.sign_sameBody hsign).1
  have hsum : p.selection.total.toNat = _ := Unspent.toNat_total p.selection.chosen
  have htotal := Change.settle_total hchange
  have hfee := Change.settle_fee hchange
  have hmax : maxAmount + 1 = UInt64.size := rfl
  refine ⟨Selector.chosen_subperm hselection, ?_, hbody.outputs.trans houtputs,
    Change.settle_dust hchange, hfee.1, hfee.2, by omega, fun _ => by omega⟩
  rw [hbody.outpoints, hinputs, List.map_map]
  rfl

theorem countable_of_prepare {p : Prepared} (h : w.prepare recipient amount = .ok p) :
    p.signed.transaction.Countable := by
  obtain ⟨hselection, -, -, hsign⟩ := prepare_eq_ok h
  have hpays := pays_of_prepare h
  have hlength := congrArg List.length hpays.inputs
  rw [List.length_map, List.length_map] at hlength
  have hfew := w.length_outputs_le recipient amount p.change.value
  have hsize : UInt64.size = 18446744073709551616 := rfl
  constructor
  · rw [hlength]
    exact Selector.length_chosen_lt hselection
  · rw [hpays.outputs]
    omega
  · intro i hi
    exact ((UnsignedTransaction.sign_sameBody hsign).2 i hi).2
  · intro o ho
    rw [hpays.outputs] at ho
    rw [script_mem_outputs ho]
    decide

/-- No fault of the preparation is about the fee: the transaction that was built pays what was
settled. -/
theorem keepsFee_of_stops {fault : TransactionError} {reached : SendHistory}
    (h : w.Stops recipient amount fault reached) : fault.KeepsFee := by
  cases h with
  | choosing stop => exact Selector.select_keepsFee _ _ _ _ stop
  | settling _ stop => exact Change.settle_keepsFee _ _ _ _ _ stop
  | building chosen _ stop =>
      obtain ⟨-, -, hne, -⟩ := Selector.select_eq_ok chosen
      obtain ⟨u, hu, -⟩ := w.build_payment _ _ _ hne
      rw [hu] at stop
      cases stop
  | balancing chosen settled built stop =>
      obtain ⟨-, -, hne, -⟩ := Selector.select_eq_ok chosen
      obtain ⟨u, hu, -, houtputs, hspent⟩ := w.build_payment _ _ _ hne
      cases Except.ok.inj (built.symm.trans hu)
      rw [checkFee, if_pos (fee?_payment settled houtputs hspent)] at stop
      cases stop
  | signing stop => exact UnsignedTransaction.sign_keepsFee _ _ _ _ stop
  | checking stop => exact SignedTransaction.verify_keepsFee _ _ stop

/-- A payment either ends before anything is handed over, and never because of a fee that changed,
or hands over one text, whatever the broadcaster is. The text reads back as a transaction that
spends what was chosen, pays amount and change, and balances them with the fee that is reported. -/
theorem send_balanced (w : Wallet) (recipient : Address) (amount : UInt64) :
    (∃ (fault : TransactionError) (reached : SendHistory), fault.KeepsFee ∧
      ∀ b, w.send b recipient amount =
        .done (.error (.transaction fault), w.record (reached.close (.transaction fault)))) ∨
    ∃ (selection : Selection) (change : Change) (raw : String) (tx : Transaction),
      w.selector.select w.unspents amount = .ok selection ∧
      Transaction.ofHex raw = .ok tx ∧ w.Pays recipient amount selection change tx ∧
      ∀ b, w.send b recipient amount = (b.broadcast raw).bind fun reply =>
        match reply with
        | .ok txid =>
          .done (.ok ⟨txid, change.fee, change.value, some raw, .submitted⟩, w.record .submitted)
        | .error fault =>
          .done (.error (.ledger fault), w.record (SendHistory.submitted.close (.ledger fault))) := by
  cases h : w.prepare recipient amount with
  | error stopped =>
      refine Or.inl ⟨stopped.1, stopped.2, keepsFee_of_stops (stops_of_prepare h), ?_⟩
      intro b
      rw [send_eq, h]
  | ok p =>
      refine Or.inr ⟨p.selection, p.change, p.signed.transaction.toHex, p.signed.transaction,
        (prepare_eq_ok h).1, ?_, pays_of_prepare h, ?_⟩
      · rw [Transaction.ofHex, Transaction.toHex, Hex.decode_encode]
        exact Transaction.ofBytes_encode (countable_of_prepare h)
      · intro b
        rw [send_eq, h]
        rfl

end Wallet

end CashWallet
