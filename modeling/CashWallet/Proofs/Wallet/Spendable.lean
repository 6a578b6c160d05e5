import CashWallet.Proofs.Cache.ReadBack
import CashWallet.Proofs.Ledger.Backends
import CashWallet.Proofs.Transaction.Control
import CashWallet.Proofs.Wallet.Course
import CashWallet.Proofs.Wallet.Payment

/-!
# What was fetched can be spent

Outputs that a backend lists without scripts are taken to pay to the address of the wallet. They go
through the cache as they are, so whatever is chosen from them is controlled by the key of the
wallet, in whichever form it is written. A payment then fails for want of funds or for an amount of
zero, and is handed over otherwise.
-/

namespace CashWallet

open Results

/-! ## Outputs without scripts -/

/-- The backend tells no script of an item. -/
def UnspentMapping.ScriptlessItem (m : UnspentMapping) (item : Json) : Prop :=
  ∀ pointer, m.script = some pointer → item.pointer? pointer = none ∨
    item.pointer? pointer = some .null ∨ item.pointer? pointer = some (.string "")

/-- The backend tells no script of any item in its list. -/
def UnspentMapping.Scriptless (m : UnspentMapping) (payload : Json) : Prop :=
  ∀ items, payload.pointer? m.list = some (.array items) → ∀ item ∈ items, m.ScriptlessItem item

namespace Ledger

variable {m : UnspentMapping} {payload item : Json} {fallback : Script} {u : Unspent}
  {us : List Unspent}

theorem scriptOf_of_scriptless (h : m.ScriptlessItem item) (fallback : Script) :
    scriptOf item m.script fallback = .ok fallback := by
  rw [scriptOf_eq_ok_iff]
  refine ⟨"", ?_, rfl⟩
  cases hscript : m.script with
  | none => rfl
  | some pointer =>
      rw [Option.bind_some]
      rcases h pointer hscript with hnone | hnull | hempty
      · rw [hnone]
        rfl
      · rw [hnull]
        rfl
      · rw [hempty]
        exact .string

theorem script_of_decodeUnspent (hitem : m.ScriptlessItem item)
    (h : decodeUnspent m fallback item = .ok u) : u.output.script = fallback := by
  obtain ⟨-, -, -, -, hscript⟩ := decodeUnspent_eq_ok_iff.1 h
  rw [scriptOf_of_scriptless hitem, ok_eq_ok_iff] at hscript
  exact hscript

/-- Where no script is told, the outputs pay to the address that they were asked for. -/
theorem script_of_decodeUnspents {address : Address} (hpayload : m.Scriptless payload)
    (h : decodeUnspents payload m address = .ok us) :
    ∀ u ∈ us, u.output.script = address.lock := by
  obtain ⟨items, hlists, hdecoded⟩ := decodeUnspents_eq_ok_iff.1 h
  intro u hu
  obtain ⟨item, hitem, hu⟩ := exists_of_mapM hdecoded hu
  refine script_of_decodeUnspent ?_ hu
  cases hlists with
  | array items found => exact hpayload items found item hitem
  | absent => cases hitem
  | null => cases hitem

end Ledger

/-! ## Payments from what the wallet controls -/

/-- The amount is zero, or there are not enough funds for it. -/
def TransactionError.Unfunded (amount : UInt64) (fault : TransactionError) : Prop :=
  fault = .zeroAmount ∧ amount = 0 ∨
    ∃ required available, fault = .insufficientFunds required available

theorem Selector.select_unfunded (s : Selector) (candidates : List Unspent) (target : UInt64) :
    FailsWith (TransactionError.Unfunded target) (s.select candidates target) := by
  unfold select
  split
  · next hzero => exact failsWith_error (Or.inl ⟨rfl, hzero⟩)
  dsimp only
  split
  · exact failsWith_error (Or.inr ⟨_, _, rfl⟩)
  split
  · exact failsWith_ok _
  · exact failsWith_error (Or.inr ⟨_, _, rfl⟩)

theorem Change.settle_unfunded (total amount fee dust : UInt64) :
    FailsWith (TransactionError.Unfunded amount) (settle total amount fee dust) := by
  unfold settle
  split
  · exact failsWith_error (Or.inr ⟨_, _, rfl⟩)
  · exact failsWith_ok _

namespace Wallet

variable {w : Wallet} {recipient : Address} {amount : UInt64}

/-- Outputs that are known do not fund an amount: choosing from them stops, or the fee for what is
chosen cannot be paid. -/
def Underfunded (w : Wallet) (us : List Unspent) (amount : UInt64) (fault : TransactionError) :
    Prop :=
  w.selector.select us amount = .error fault ∨
    ∃ selection, w.selector.select us amount = .ok selection ∧
      Change.settle selection.total amount selection.fee w.config.dustThreshold = .error fault

theorem Underfunded.unfunded {us : List Unspent} {fault : TransactionError}
    (h : w.Underfunded us amount fault) : fault.Unfunded amount := by
  rcases h with hchoosing | ⟨selection, -, hsettling⟩
  · exact Selector.select_unfunded _ _ _ _ hchoosing
  · exact Change.settle_unfunded _ _ _ _ _ hsettling

/-- The address of a wallet locks to its key, in the form in which the key is written. -/
theorem lock_address (w : Wallet) : w.address.lock = .payToKeyHash w.key.publicKey.hash160 :=
  rfl

/-- Once funds are chosen and the fee is settled, a wallet that controls what it knows of prepares
the payment. -/
theorem exists_prepare {selection : Selection} {change : Change}
    (hcontrols : ∀ u ∈ w.unspents, w.key.Controls u.output)
    (hsign : ∀ u, w.Builds recipient amount u →
      u.YieldsSignatures [w.key] w.config.digestAlgorithm)
    (hselection : w.selector.select w.unspents amount = .ok selection)
    (hchange : Change.settle selection.total amount selection.fee w.config.dustThreshold =
      .ok change) : ∃ p, w.prepare recipient amount = .ok p := by
  obtain ⟨-, -, hne, -⟩ := Selector.select_eq_ok hselection
  obtain ⟨u, hbuild, -, houtputs, hspent⟩ := w.build_payment recipient amount change.value hne
  have hfee : checkFee u change.fee = .ok () := by
    rw [checkFee, if_pos (fee?_payment hchange houtputs hspent)]
  have hcontrolled : u.ControlledBy [w.key] := by
    rw [UnsignedTransaction.ControlledBy, hspent]
    intro spent hmem
    obtain ⟨coin, hcoin, rfl⟩ := List.mem_map.1 hmem
    have hknown := (Selector.chosen_subperm hselection).subset hcoin
    exact ⟨w.key, List.mem_singleton_self _, hcontrols coin hknown⟩
  have hbuilds : w.Builds recipient amount u :=
    ⟨selection, change, hselection, hchange, hbuild, hfee⟩
  obtain ⟨signed, hsigned⟩ :=
    (UnsignedTransaction.exists_sign_iff (hsign u hbuilds)).2 hcontrolled
  have hverified := UnsignedTransaction.verify_of_sign hsigned
  refine ⟨⟨selection, change, u, signed⟩, ?_⟩
  simp only [prepare, bind_eq_ok_iff, mapError_eq_ok_iff]
  exact ⟨selection, hselection, change, hchange, u, hbuild, (), hfee, signed, hsigned, (),
    hverified, rfl⟩

/-- A wallet that controls all it knows of stops only for want of funds. -/
theorem prepare_underfunded (hcontrols : ∀ u ∈ w.unspents, w.key.Controls u.output)
    (hsign : ∀ u, w.Builds recipient amount u →
      u.YieldsSignatures [w.key] w.config.digestAlgorithm) :
    FailsWith (fun stopped => w.Underfunded w.unspents amount stopped.1 ∧
      stopped.2 ∈ [SendHistory.start, .selected]) (w.prepare recipient amount) := by
  rintro ⟨fault, reached⟩ h
  cases hselection : w.selector.select w.unspents amount with
  | error stop =>
      rw [prepare, hselection] at h
      cases h
      exact ⟨Or.inl hselection, List.mem_cons_self⟩
  | ok selection =>
      cases hchange : Change.settle selection.total amount selection.fee
          w.config.dustThreshold with
      | error stop =>
          rw [prepare, hselection, mapError_ok_bind, hchange] at h
          cases h
          exact ⟨Or.inr ⟨selection, hselection, hchange⟩, by simp⟩
      | ok change =>
          obtain ⟨p, hp⟩ := exists_prepare hcontrols hsign hselection hchange
          rw [hp] at h
          cases h

/-- The outputs that were put into the cache are the ones that the wallet knows of. -/
theorem unspents_of_store {us : List Unspent} {backend : String} {stored cached : CacheStore}
    (hstored : w.store.store .unspents backend (.array (us.map Unspent.toJson)) = .ok stored)
    (hcached : CacheStore.EditedBeside .unspents stored cached) :
    (w.withStore cached).unspents = us := by
  have hloaded : cached.unspents? = some us := by
    rw [CacheStore.unspents?, CacheStore.load?_of_store hstored
      (Json.isIntegral_map Unspent.isIntegral_toJson us) hcached]
    exact Json.list?_map Unspent.ofJson?_toJson us
  change cached.unspents?.getD [] = us
  rw [hloaded, Option.getD_some]

/-- What a wallet fetched for its address, it can spend: where the backend tells no scripts, what is
read from the cache is what was fetched, and a payment stops only for want of funds. Otherwise it is
handed over, once and the same whatever the broadcaster is. -/
theorem send_fetched {m : UnspentMapping} {payload : Json} {us : List Unspent} {backend : String}
    {stored cached : CacheStore} (hscriptless : m.Scriptless payload)
    (hdecoded : Ledger.decodeUnspents payload m w.address = .ok us)
    (hstored : w.store.store .unspents backend (.array (us.map Unspent.toJson)) = .ok stored)
    (hcached : CacheStore.EditedBeside .unspents stored cached)
    (hsign : ∀ u, (w.withStore cached).Builds recipient amount u →
      u.YieldsSignatures [w.key] w.config.digestAlgorithm) :
    (w.withStore cached).unspents = us ∧
    ((∃ (fault : TransactionError) (reached : SendHistory), fault.Unfunded amount ∧
        w.Underfunded us amount fault ∧ reached ∈ [SendHistory.start, .selected] ∧
        ∀ b, (w.withStore cached).send b recipient amount =
          .done (.error (.transaction fault),
            (w.withStore cached).record (reached.close (.transaction fault)))) ∨
      ∃ p, (w.withStore cached).prepare recipient amount = .ok p ∧
        ∀ b, (w.withStore cached).send b recipient amount =
          (b.broadcast p.signed.transaction.toHex).bind fun reply =>
            match reply with
            | .ok txid => .done (.ok (report p txid), (w.withStore cached).record .submitted)
            | .error fault => .done (.error (.ledger fault),
                (w.withStore cached).record (SendHistory.submitted.close (.ledger fault)))) := by
  have hunspents := unspents_of_store hstored hcached
  refine ⟨hunspents, ?_⟩
  have hcontrols : ∀ u ∈ (w.withStore cached).unspents, w.key.Controls u.output := by
    rw [hunspents]
    intro u hu
    rw [PrivateKey.Controls, Ledger.script_of_decodeUnspents hscriptless hdecoded u hu]
    exact w.lock_address
  cases hprepare : (w.withStore cached).prepare recipient amount with
  | error stopped =>
      obtain ⟨hstopped, hreached⟩ := prepare_underfunded hcontrols hsign stopped hprepare
      rw [hunspents] at hstopped
      refine Or.inl ⟨stopped.1, stopped.2, hstopped.unfunded, hstopped, hreached, ?_⟩
      intro b
      rw [send_eq, hprepare]
  | ok p =>
      refine Or.inr ⟨p, rfl, ?_⟩
      intro b
      have hsend := send_eq (w.withStore cached) b recipient amount
      rw [hprepare] at hsend
      exact hsend

open UnsignedTransaction (sampleKey sampleOutput samplePayment samplePayment_yieldsSignatures)

/-- A wallet that pays no fees. -/
def sampleWallet : Wallet where
  key := sampleKey
  config := { feePerByte := 0, digest := some .legacy }
  ledger := .ofStore .empty
  lastSend := none

/-- A listing of an output, with no script. -/
def sampleListing : Ledger.Listing where
  shown := (TxId.ofData []).bytes.reverse
  length_shown := by rw [List.length_reverse, TxId.length_bytes]
  index := 0
  value := 1000

theorem scriptless_sampleListing : (Schema.blockcypher .mainnet).unspent.Scriptless
    (Ledger.Blockcypher.unspentsDocument [sampleListing]) := by
  intro items hitems item hitem
  cases hitems
  cases List.mem_singleton.1 hitem
  intro pointer hpointer
  cases hpointer
  exact Or.inl rfl

theorem select_sampleListing (address : Address) :
    Selector.select ⟨0, .standard⟩ [sampleListing.unspent address] 900 =
      .ok ⟨[sampleListing.unspent address], 0⟩ := by
  have hordered : Selector.byValue [sampleListing.unspent address] =
      [sampleListing.unspent address] := List.mergeSort_singleton _
  have henough : ¬ Unspent.total [sampleListing.unspent address] <
      satAdd 900 (Selector.feeFor ⟨0, .standard⟩ 1) :=
    (by decide : ¬ (1000 : UInt64) < satAdd 900 (Selector.feeFor ⟨0, .standard⟩ 1))
  have htaken : Selector.take? ⟨0, .standard⟩ 900 [] 0 [sampleListing.unspent address] =
      some ⟨[sampleListing.unspent address], 0⟩ := rfl
  rw [Selector.select, if_neg (by decide)]
  dsimp only
  rw [List.length_singleton, if_neg henough, hordered, htaken]

theorem settle_sampleListing (address : Address) :
    Change.settle (Selection.total ⟨[sampleListing.unspent address], 0⟩) 900 0 546 =
      .ok ⟨100, 0⟩ :=
  (by decide : Change.settle 1000 900 0 546 = .ok ⟨100, 0⟩)

theorem builds_sampleWallet {cached : CacheStore} (h : (sampleWallet.withStore cached).unspents =
      [sampleListing.unspent sampleWallet.address]) {u : UnsignedTransaction}
    (hu : (sampleWallet.withStore cached).Builds sampleWallet.address 900 u) :
    u = samplePayment := by
  obtain ⟨selection, change, hselection, hchange, hbuild, -⟩ := hu
  rw [h] at hselection
  cases hselection.symm.trans (select_sampleListing sampleWallet.address)
  cases hchange.symm.trans (settle_sampleListing sampleWallet.address)
  cases hbuild
  have houtpoint : (sampleListing.unspent sampleWallet.address).outpoint =
      ⟨TxId.ofData [], 0⟩ := by
    simp only [Ledger.Listing.unspent, sampleListing, List.reverse_reverse]
  have hkey : sampleWallet.key = sampleKey := rfl
  have hlock : (sampleListing.unspent sampleWallet.address).output = sampleOutput := by
    rw [Ledger.Listing.unspent, lock_address, hkey]
    rfl
  have hpaid : ((sampleWallet.withStore cached).destinations sampleWallet.address 900
      (Change.mk 100 0).value).map Destination.output = [{ sampleOutput with value := 900 }] := by
    rw [map_output_destinations, outputs, if_neg (by decide), lock_address, hkey]
    rfl
  simp only [Builder.transaction, List.map_cons, List.map_nil, houtpoint, hlock, hpaid]
  rfl

theorem send_fetched_sample : ∃ cached p,
    (sampleWallet.withStore cached).unspents = [sampleListing.unspent sampleWallet.address] ∧
    (sampleWallet.withStore cached).prepare sampleWallet.address 900 = .ok p := by
  have hdecoded := Ledger.Blockcypher.decodeUnspents_of_tells .mainnet
    (Ledger.Blockcypher.documents_tell sampleWallet.address [sampleListing] []).1
  obtain ⟨cached, hstored⟩ := CacheStore.exists_set (s := .empty) nofun CacheKey.unspents.name
    (CacheEntry.encode "blockcypher"
      (.array ([sampleListing.unspent sampleWallet.address].map Unspent.toJson)))
  have hsign : ∀ u, (sampleWallet.withStore cached).Builds sampleWallet.address 900 u →
      u.YieldsSignatures [sampleKey] .legacy := by
    intro u hu
    rw [builds_sampleWallet (unspents_of_store hstored .same) hu]
    exact samplePayment_yieldsSignatures
  obtain ⟨hunspents, ⟨fault, -, -, hunderfunded, -⟩ | ⟨p, hp, -⟩⟩ :=
    send_fetched scriptless_sampleListing hdecoded hstored .same hsign
  · rcases hunderfunded with hselection | ⟨selection, hselection, hchange⟩
    · cases hselection.symm.trans (select_sampleListing sampleWallet.address)
    · cases hselection.symm.trans (select_sampleListing sampleWallet.address)
      cases hchange.symm.trans (settle_sampleListing sampleWallet.address)
  · exact ⟨cached, p, hunspents, hp⟩

end Wallet

end CashWallet
