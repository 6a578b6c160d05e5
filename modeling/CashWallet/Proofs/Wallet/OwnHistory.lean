import CashWallet.Ledger.Normalize
import CashWallet.Proofs.Address
import CashWallet.Proofs.Transaction.Control
import CashWallet.Proofs.Wallet.Payment

/-!
# Payments in the wallet's own history

A ledger shows a payment by addresses: those of what is spent, which are the wallet's, and those of
what is paid. The text of an address tells its key hash and its network, so the wallet finds in its
history that it paid, and what others received of it.
-/

namespace CashWallet

open Results

/-! ## Transactions by their addresses -/

/-- The addresses that a ledger shows for a script: that of the key hash it pays to, if it does. -/
def Script.addresses (network : Network) (s : Script) : List String :=
  match s.keyHash with
  | .ok keyHash => [Address.encode keyHash network]
  | .error _ => []

theorem Script.addresses_lock (a : Address) (network : Network) :
    a.lock.addresses network = [Address.encode a.keyHash network] := by
  rw [addresses, a.keyHash_lock]

/-- What a key controls is shown with the address of the key. -/
theorem PrivateKey.Controls.addresses {key : PrivateKey} {spent : Output}
    (h : key.Controls spent) (network : Network) :
    spent.script.addresses network = [(Address.ofPublicKey key.publicKey network).text] := by
  rw [Script.addresses, controls_iff.1 h]
  rfl

/-- An output as a ledger of a network shows it. -/
def Output.shown (o : Output) (network : Network) : LedgerOutput :=
  ⟨o.script.addresses network, o.value⟩

/-- A transaction as a ledger of a network shows it, with one address for all that is spent. -/
def Transaction.shown (tx : Transaction) (network : Network) (sender hash timestamp : String)
    (confirmations : UInt64) : LedgerTransaction where
  hash := hash
  timestamp := timestamp
  confirmations := confirmations
  inputs := tx.inputs.map fun _ => [sender]
  outputs := tx.outputs.map fun o => o.shown network

namespace LedgerTransaction

theorem lastFirst_concat (sets : List (List String)) (a : String) :
    lastFirst (sets ++ [[a]]) = a := by
  rw [lastFirst, List.reverse_append]
  rfl

theorem lastFirst_of_forall {sets : List (List String)} {a : String} (hne : sets ≠ [])
    (h : ∀ set ∈ sets, set = [a]) : lastFirst sets = a := by
  rw [← List.dropLast_append_getLast hne, h _ (List.getLast_mem hne)]
  exact lastFirst_concat _ a

end LedgerTransaction

namespace Wallet

variable {w : Wallet} {recipient : Address} {amount : UInt64}

/-- On its own network the wallet takes for its address what stands for its key hash, and nothing
else. -/
theorem contains_address (w : Wallet) (a : Address) :
    [Address.encode a.keyHash w.config.ledger.network].contains w.address.text =
      decide (a.keyHash = w.address.keyHash) := by
  have htext : w.address.text = Address.encode a.keyHash w.config.ledger.network ↔
      a.keyHash = w.address.keyHash := by
    rw [eq_comm]
    exact (Address.encode_inj a.length_keyHash w.address.length_keyHash).trans
      (and_iff_left rfl)
  rw [Bool.eq_iff_iff, List.contains_iff_mem, List.mem_singleton, htext, decide_eq_true_eq]

/-- What a payment spends is shown with the address of the wallet. -/
theorem spent_addresses {p : Prepared} (h : w.prepare recipient amount = .ok p) :
    p.signed.spent.map (fun o => o.script.addresses w.config.ledger.network) =
      p.signed.transaction.inputs.map fun _ => [w.address.text] := by
  obtain ⟨-, -, -, hsign⟩ := prepare_eq_ok h
  obtain ⟨scripts, -, -, hsigned⟩ := UnsignedTransaction.sign_eq_ok_iff.1 hsign
  have hspent : p.signed.spent = p.unsigned.spent := by rw [hsigned]
  have hlength : p.signed.transaction.inputs.length = p.signed.spent.length := by
    rw [hspent, p.unsigned.length_spent, (UnsignedTransaction.sign_sameBody hsign).1.length_inputs]
  have heach : ∀ o ∈ p.signed.spent,
      o.script.addresses w.config.ledger.network = [w.address.text] := by
    intro o ho
    obtain ⟨key, hkey, hcontrols⟩ := UnsignedTransaction.controlledBy_of_sign hsign o (hspent ▸ ho)
    rw [List.mem_singleton.1 hkey] at hcontrols
    exact hcontrols.addresses _
  rw [List.map_congr_left heach, List.map_const', List.map_const', hlength]

/-- An output for an address counts for the value of an outgoing transaction if the address is not
the wallet's. -/
theorem counts_shown (w : Wallet) (a : Address) (value : UInt64) :
    LedgerTransaction.counts .outgoing w.address.text
        ((⟨value, a.lock⟩ : Output).shown w.config.ledger.network) =
      !decide (a.keyHash = w.address.keyHash) := by
  rw [LedgerTransaction.counts, Output.shown, Script.addresses_lock]
  exact congrArg _ (w.contains_address a)

/-- Of the outputs of a payment only the amount goes to others, unless the wallet pays itself. -/
theorem satSum_toOthers (w : Wallet) (recipient : Address) (amount change : UInt64) :
    satSum ((((w.outputs recipient amount change).map fun o =>
        o.shown w.config.ledger.network).filter
          (LedgerTransaction.counts .outgoing w.address.text)).map LedgerOutput.value) =
      if recipient.keyHash = w.address.keyHash then 0 else amount := by
  have hchange : ((if 0 < change then [(⟨change, w.address.lock⟩ : Output)] else []).map fun o =>
      o.shown w.config.ledger.network).filter
        (LedgerTransaction.counts .outgoing w.address.text) = [] := by
    split
    · simp [counts_shown]
    · rfl
  rw [outputs, List.map_cons, List.filter_cons, hchange, counts_shown]
  by_cases hself : recipient.keyHash = w.address.keyHash
  · simp [hself, satSum]
  · have hsum : satSum [amount] = amount := by
      rw [← UInt64.toNat_inj, toNat_satSum]
      simp [Nat.min_eq_left (toNat_le_maxAmount amount)]
    simp only [hself, decide_false, Bool.not_false, if_true, if_false, List.map_cons, List.map_nil]
    exact hsum

/-- The last output of a payment is the change, if there is any. -/
theorem lastFirst_outputs (w : Wallet) (recipient : Address) (amount change : UInt64) :
    LedgerTransaction.lastFirst (((w.outputs recipient amount change).map fun o =>
        o.shown w.config.ledger.network).map LedgerOutput.addresses) =
      if 0 < change then w.address.text
      else Address.encode recipient.keyHash w.config.ledger.network := by
  have haddresses (a : Address) (value : UInt64) :
      ((⟨value, a.lock⟩ : Output).shown w.config.ledger.network).addresses =
        [Address.encode a.keyHash w.config.ledger.network] :=
    Script.addresses_lock a _
  rw [outputs]
  split
  · rw [List.map_cons, List.map_cons, List.map_singleton, List.map_singleton, haddresses, haddresses]
    exact LedgerTransaction.lastFirst_concat [_] _
  · rw [List.map_singleton, List.map_singleton, haddresses]
    exact LedgerTransaction.lastFirst_concat [] _

/-- How the wallet sees a transaction with the outputs of a payment that is shown with its address
for all that is spent. -/
theorem classify_shown {tx : Transaction} {change : UInt64} (hne : tx.inputs ≠ [])
    (houtputs : tx.outputs = w.outputs recipient amount change) (hash timestamp : String)
    (confirmations : UInt64) :
    (tx.shown w.config.ledger.network w.address.text hash timestamp confirmations).classify
        w.address.text =
      { timestamp
        direction := .outgoing
        hash
        sender := w.address.text
        recipient :=
          if 0 < change then w.address.text
          else Address.encode recipient.keyHash w.config.ledger.network
        value := if recipient.keyHash = w.address.keyHash then 0 else amount
        confirmations } := by
  have hdirection : LedgerTransaction.direction
      (tx.shown w.config.ledger.network w.address.text hash timestamp confirmations)
        w.address.text = .outgoing := by
    obtain ⟨input, hinput⟩ := List.exists_mem_of_ne_nil _ hne
    refine if_pos (List.any_eq_true.2 ⟨[w.address.text], ?_, ?_⟩)
    · exact List.mem_map.2 ⟨input, hinput, rfl⟩
    · exact List.contains_iff_mem.2 (List.mem_singleton_self _)
  have hsender : LedgerTransaction.lastFirst (tx.inputs.map fun _ => [w.address.text]) =
      w.address.text := by
    refine LedgerTransaction.lastFirst_of_forall (List.map_eq_nil_iff.not.2 hne) ?_
    intro set hset
    obtain ⟨-, -, rfl⟩ := List.mem_map.1 hset
    rfl
  rw [LedgerTransaction.classify, hdirection]
  simp only [Transaction.shown, houtputs, hsender, w.satSum_toOthers, w.lastFirst_outputs]

/-- A payment either ends before anything is handed over, or hands over one text that reads back as
a transaction whose outputs are the amount and the change. What it spends is shown with the address
of the wallet, and so the wallet sees it as its own: it paid the amount, or nothing if to itself, and
the last output is its change if there is any. -/
theorem send_shown (w : Wallet) (recipient : Address) (amount : UInt64) :
    (∃ (fault : TransactionError) (reached : SendHistory), ∀ b, w.send b recipient amount =
        .done (.error (.transaction fault), w.record (reached.close (.transaction fault)))) ∨
    ∃ p : Prepared,
      (∀ b, w.send b recipient amount =
        (b.broadcast p.signed.transaction.toHex).bind fun reply =>
          match reply with
          | .ok txid => .done (.ok (report p txid), w.record .submitted)
          | .error fault =>
            .done (.error (.ledger fault),
              w.record (SendHistory.submitted.close (.ledger fault)))) ∧
      Transaction.ofHex p.signed.transaction.toHex = .ok p.signed.transaction ∧
      p.signed.transaction.outputs = w.outputs recipient amount p.change.value ∧
      p.signed.spent.map (fun o => o.script.addresses w.config.ledger.network) =
        p.signed.transaction.inputs.map (fun _ => [w.address.text]) ∧
      ∀ hash timestamp confirmations,
        (p.signed.transaction.shown w.config.ledger.network w.address.text hash timestamp
            confirmations).classify w.address.text =
          { timestamp
            direction := .outgoing
            hash
            sender := w.address.text
            recipient :=
              if 0 < p.change.value then w.address.text
              else (Address.ofKeyHash recipient.keyHash w.config.ledger.network
                recipient.length_keyHash).text
            value := if recipient.keyHash = w.address.keyHash then 0 else amount
            confirmations } := by
  cases h : w.prepare recipient amount with
  | error stopped =>
      refine Or.inl ⟨stopped.1, stopped.2, fun b => ?_⟩
      have hsend := w.send_eq b recipient amount
      rw [h] at hsend
      exact hsend
  | ok p =>
      have hpays := pays_of_prepare h
      have hne : p.signed.transaction.inputs ≠ [] := by
        obtain ⟨-, -, hchosen, -⟩ := Selector.select_eq_ok (prepare_eq_ok h).1
        intro hnil
        have hinputs := hpays.inputs
        rw [hnil, List.map_nil, eq_comm, List.map_eq_nil_iff] at hinputs
        exact hchosen hinputs
      refine Or.inr ⟨p, ?_, ?_, hpays.outputs, spent_addresses h, classify_shown hne hpays.outputs⟩
      · intro b
        have hsend := w.send_eq b recipient amount
        rw [h] at hsend
        exact hsend
      · rw [Transaction.ofHex, Transaction.toHex, Hex.decode_encode]
        exact Transaction.ofBytes_encode (countable_of_prepare h)

end Wallet

end CashWallet
