import CashWallet.Proofs.Key.ImportFormat
import CashWallet.Proofs.Wallet.Sessions
import CashWallet.Wallet.Shared

/-!
# A saved wallet is restored

Only a save writes the key of a wallet into its store: reloads write under the keys of what they
bring, and neither payments nor their confirmations write at all. So once a wallet has been saved,
its store holds the text of its key for as long as others leave that entry alone, and every other
wallet that is restored from the store has this key.
-/

namespace CashWallet

namespace CacheStore

variable {key : CacheKey} {s s' s'' : CacheStore}

theorem EditedBeside.trans (h : EditedBeside key s s') (h' : EditedBeside key s' s'') :
    EditedBeside key s s'' := by
  induction h' with
  | same => exact h
  | written _ beside next ih => exact .written ih beside next
  | erased _ beside next ih => exact .erased ih beside next

theorem ne_offline_of_set {name : String} {bytes : Bytes} (h : s.set name bytes = .ok s') :
    s' ≠ offline := by
  cases s <;> cases h <;> exact nofun

theorem ne_offline_of_erase (h : s.erase key = .ok s') : s' ≠ offline := by
  cases s <;> cases h <;> exact nofun

theorem Written.ne_offline (h : s.Written s') (hs : s ≠ offline) : s' ≠ offline := by
  cases h with
  | refl => exact hs
  | tail _ next =>
      obtain ⟨_, _, hset⟩ := next
      exact ne_offline_of_set hset

end CacheStore

open CacheStore (EditedBeside)

namespace Wallet

/-! ## What writes under other keys -/

variable {w w' : Wallet} {key : CacheKey}

theorem Updated.key_eq (h : Updated w w') : w'.key = w.key := by
  rw [h.onlyLedger]

/-- A reload leaves alone what is not under the key of what it brings. -/
theorem Reloaded.beside {α : Type} {write : α → Except LedgerError CacheStore}
    {result : Except WalletError α} (h : Reloaded write w result w') {other : CacheKey}
    (hother : other ≠ key)
    (hwrite : ∀ value s', write value = .ok s' → ∃ bytes, w.store.set other.name bytes = .ok s') :
    EditedBeside key w.store w'.store := by
  have hsettled := h.settled
  generalize w'.store = s' at hsettled ⊢
  cases hsettled with
  | kept fault => exact .same
  | written hvalue =>
      obtain ⟨bytes, hset⟩ := hwrite _ _ hvalue
      exact .written .same hother hset

theorem reload_beside {α : Type} (w : Wallet) (f : Fetch α) (hf : f.key ≠ key) :
    (w.reload f).Ends fun r => EditedBeside key w.store r.2.store :=
  (w.reload_reloaded f).imp fun _ h => h.beside hf fun _ _ hwrite => ⟨_, hwrite⟩

theorem reloadFees_beside (w : Wallet) (hkey : .fees ≠ key) :
    w.reloadFees.Ends fun r => EditedBeside key w.store r.2.store :=
  (reloadMarket_reloaded (w.market.fetchFees_settled w.store)).imp fun _ h =>
    h.beside hkey fun _ _ hwrite => ⟨_, hwrite⟩

theorem reloadRates_beside (w : Wallet) (husd : .rateUsd ≠ key) (hbch : .rateBch ≠ key) :
    w.reloadRates.Ends fun r => EditedBeside key w.store r.2.store := by
  apply reloadRates_chain (R := fun w w' => EditedBeside key w.store w'.store)
  · exact fun _ _ _ h => h.beside husd fun _ _ hwrite => ⟨_, hwrite⟩
  · exact fun _ _ _ h => h.beside hbch fun _ _ hwrite => ⟨_, hwrite⟩
  · exact EditedBeside.trans

theorem reloadTransactions_beside (w : Wallet) :
    w.reloadTransactions.Ends fun r => EditedBeside .wif w.store r.2.store :=
  w.reload_beside (.transactions _ _) nofun

/-- No reload writes the key of the wallet. -/
theorem reloadPart_beside (w : Wallet) (part : Part) :
    (w.reloadPart part).Ends fun r => EditedBeside .wif w.store r.2.store := by
  cases part with
  | balance => exact ends_reload (w.reload_beside (.balance _ _) nofun)
  | unspents => exact ends_reload (w.reload_beside (.unspents _ _) nofun)
  | transactions => exact ends_reload w.reloadTransactions_beside
  | fees => exact ends_reload (w.reloadFees_beside nofun)
  | rates => exact ends_reload (w.reloadRates_beside nofun nofun)

theorem checkConfirmation_beside (w : Wallet) (report : SendReport) :
    (w.checkConfirmation report).Ends fun r => EditedBeside .wif w.store r.2.2.store := by
  unfold checkConfirmation
  split
  · exact Exchange.ends_done .same
  · refine w.reloadTransactions_beside.bind ?_
    rintro ⟨result, w'⟩ hw'
    cases result with
    | error fault => exact Exchange.ends_done hw'
    | ok entries =>
        dsimp only
        split
        · split
          · exact Exchange.ends_done hw'
          · exact Exchange.ends_done hw'
        · exact Exchange.ends_done hw'

theorem complete_store (w : Wallet) (payment : Sending (String × Change × Option String))
    (answer : List Request → Outcome) :
    ((w.complete payment).run answer).2.store = w.store := by
  rw [(w.complete_run payment answer).1]
  rfl

theorem exists_save (h : w.store ≠ .offline) : ∃ w', w.save = .ok w' := by
  obtain ⟨stored, hset⟩ :=
    CacheStore.exists_set h CacheKey.wif.name (CacheEntry.encode backendName (.string w.key.toWif))
  exact ⟨_, Results.bind_eq_ok_iff.2 ⟨stored, Results.mapError_eq_ok_iff.2 hset, rfl⟩⟩

theorem entry?_save (h : w.save = .ok w') :
    w'.store.entry? .wif = some (CacheEntry.encode backendName (.string w.key.toWif)) := by
  obtain ⟨stored, hstored, heq⟩ := Results.bind_eq_ok_iff.1 h
  cases heq
  exact CacheStore.entry?_set (Results.mapError_eq_ok_iff.1 hstored)

/-- A store that holds the text of a key gives a wallet of this key. -/
theorem restore_of_entry {store : CacheStore} {key : PrivateKey} {backend : String}
    (h : store.entry? .wif = some (CacheEntry.encode backend (.string key.toWif)))
    (config : WalletConfig) : restore store config = .ok (ofStore key config store) := by
  have htext : store.loadText? .wif = some key.toWif := by
    rw [CacheStore.loadText?, CacheStore.load?_of_entry h, CacheEntry.decode?_encode backend rfl]
    rfl
  have hwif : PrivateKey.ofWif key.toWif = .ok key := by
    have hnothing : ∀ c ∈ "".toList, Text.isBlank c = true := by simp
    have htrim := key.trim_toWif hnothing hnothing
    rw [String.empty_append, String.append_empty] at htrim
    exact PrivateKey.ofWif_eq_ok_iff.2 htrim
  rw [restore, htext]
  simp only [hwif]
  rfl

namespace Session

variable {s : Session}

theorem through_append (s : Session) (events events' : List Event) :
    s.through (events ++ events') = (s.through events).through events' :=
  List.foldl_append

/-! ## Before the save -/

theorem Moves.key_eq {s' : Session} (h : Moves s s') : s'.wallet.key = s.wallet.key := by
  obtain ⟨w, lastSend, hw, heq⟩ := h.exists_updated
  rw [heq]
  exact hw.key_eq

/-- A session of a key over a store that can be written. -/
structure Online (key : PrivateKey) (s : Session) : Prop where
  key_eq : s.wallet.key = key
  store_ne : s.wallet.store ≠ .offline

namespace Online

variable {key : PrivateKey}

theorem moves (h : Online key s) {s' : Session} (hmoves : Moves s s') : Online key s' where
  key_eq := hmoves.key_eq.trans h.key_eq
  store_ne := hmoves.written.ne_offline h.store_ne

theorem edited (h : Online key s) {result : Except LedgerError CacheStore}
    (hresult : ∀ store, result = .ok store → store ≠ .offline) : Online key (s.edited result) := by
  cases result with
  | ok store => exact ⟨h.key_eq, hresult store rfl⟩
  | error fault => exact h

theorem meet (h : Online key s) (e : Event) : Online key (s.meet e) := by
  cases e with
  | called c => exact h.moves (s.step_moves c)
  | written other bytes => exact h.edited fun _ => CacheStore.ne_offline_of_set
  | erased other => exact h.edited fun _ => CacheStore.ne_offline_of_erase

theorem through (h : Online key s) (events : List Event) : Online key (s.through events) := by
  induction events generalizing s with
  | nil => exact h
  | cons e events ih => exact ih (h.meet e)

end Online

/-! ## After the save -/

/-- A session of a key whose text is in the store. -/
structure Saved (key : PrivateKey) (s : Session) : Prop where
  key_eq : s.wallet.key = key
  entry : s.wallet.store.entry? .wif = some (CacheEntry.encode backendName (.string key.toWif))

theorem paid_beside (s : Session) (payment : Sending (String × Change × Option String))
    (answer : List Request → Outcome) :
    EditedBeside .wif s.wallet.store
      (s.paid (payment.course.run answer)
        ((s.wallet.complete payment).run answer)).wallet.store := by
  change EditedBeside .wif s.wallet.store ((s.wallet.complete payment).run answer).2.store
  rw [complete_store]
  exact .same

/-- A call other than a save leaves alone what is under the key of the wallet. -/
theorem step_beside (s : Session) {c : Call} (hc : c.operation ≠ .save) :
    EditedBeside .wif s.wallet.store (s.step c).wallet.store := by
  obtain ⟨operation, answer⟩ := c
  cases operation with
  | send b recipient amount => exact s.paid_beside (s.wallet.sendLocal b recipient amount) answer
  | sendCooperative b recipient amount =>
      exact s.paid_beside (s.wallet.sendDrafted b recipient amount) answer
  | checkConfirmation place =>
      unfold step
      dsimp only
      split
      · exact .same
      · exact s.wallet.checkConfirmation_beside _ answer []
  | reload part => exact s.wallet.reloadPart_beside part answer []
  | cancelReloads => exact .same
  | save => exact absurd rfl hc

namespace Saved

variable {key : PrivateKey}

/-- A save succeeds unless the store is offline, and then the text of the key is in the store. -/
theorem of_save (h : Online key s) (answer : List Request → Outcome) :
    Saved key (s.step ⟨.save, answer⟩) := by
  obtain ⟨w', hsave⟩ := exists_save h.store_ne
  have hstep : s.step ⟨.save, answer⟩ = { s with wallet := w' } := by
    rw [step]
    simp only [hsave]
  rw [hstep]
  constructor
  · exact (save_updated hsave).key_eq.trans h.key_eq
  · rw [entry?_save hsave, h.key_eq]

theorem online (h : Saved key s) : Online key s where
  key_eq := h.key_eq
  store_ne hoffline := by
    have hentry := h.entry
    rw [hoffline] at hentry
    cases hentry

theorem beside (h : Saved key s) {s' : Session} (hkey : s'.wallet.key = s.wallet.key)
    (hstore : EditedBeside .wif s.wallet.store s'.wallet.store) : Saved key s' where
  key_eq := hkey.trans h.key_eq
  entry := hstore.entry?_eq.trans h.entry

theorem edited (h : Saved key s) {result : Except LedgerError CacheStore}
    (hresult : ∀ store, result = .ok store → EditedBeside .wif s.wallet.store store) :
    Saved key (s.edited result) := by
  cases result with
  | ok store => exact h.beside rfl (hresult store rfl)
  | error fault => exact h

theorem step (h : Saved key s) (c : Call) : Saved key (s.step c) := by
  -- Another save writes the entry again, so it is no write beside the key.
  obtain ⟨operation, answer⟩ := c
  by_cases hsave : operation = .save
  · subst hsave
    exact of_save h.online answer
  · exact h.beside (s.step_moves _).key_eq (s.step_beside hsave)

theorem meet (h : Saved key s) {e : Event} (he : e.Spares .wif) : Saved key (s.meet e) := by
  cases e with
  | called c => exact h.step c
  | written other bytes => exact h.edited fun _ hset => .written .same he hset
  | erased other => exact h.edited fun _ herase => .erased .same he herase

theorem through (h : Saved key s) {events : List Event} (hevents : ∀ e ∈ events, e.Spares .wif) :
    Saved key (s.through events) := by
  induction events generalizing s with
  | nil => exact h
  | cons e events ih =>
      obtain ⟨he, hevents⟩ := List.forall_mem_cons.1 hevents
      exact ih (h.meet he) hevents

end Saved

end Session

/-- Whatever the store held at first, and whatever happened before: once a wallet has been saved,
every configuration restores it from the store, until others write or erase its entry. The restored
wallet has the scalar and the form of the key, and the address of its public key on the network of
the configuration. So on the same network it has the same address. -/
theorem restore_saved (w : Wallet) (h : w.store ≠ .offline) (before after : List Event)
    (answer : List Request → Outcome) (hafter : ∀ e ∈ after, e.Spares .wif)
    (config : WalletConfig) :
    ∃ restored, restore ((Session.start w).through
        (before ++ .called ⟨.save, answer⟩ :: after)).wallet.store config = .ok restored ∧
      restored.key.scalar = w.key.scalar ∧ restored.key.compressed = w.key.compressed ∧
      restored.address = .ofPublicKey w.key.publicKey config.ledger.network ∧
      (config.ledger.network = w.config.ledger.network → restored.address = w.address) := by
  have honline : Session.Online w.key (Session.start w) := ⟨rfl, h⟩
  have hsaved : Session.Saved w.key ((Session.start w).through
      (before ++ .called ⟨.save, answer⟩ :: after)) := by
    rw [Session.through_append]
    exact (Session.Saved.of_save (honline.through before) answer).through hafter
  refine ⟨_, restore_of_entry hsaved.entry config, rfl, rfl, rfl, ?_⟩
  intro hnetwork
  exact congrArg (Address.ofPublicKey w.key.publicKey) hnetwork

/-- A wallet of the uncompressed form of a key, over a store with another's entry. -/
def uncompressed : Wallet :=
  .ofStore { fresh.key with compressed := false } {}
    (.memory [(CacheKey.wif.name, utf8Bytes "5J")])

/-- A payment and its confirmation, a reload that breaks off, and writes by others. -/
def eventful : List Event :=
  [.called (Session.payment 5), .called Session.confirmation, .called ⟨.reload .rates, interrupted⟩,
    .erased .balance, .written .fees (utf8Bytes "1")]

theorem restore_saved_testnet : ∃ restored,
    restore ((Session.start uncompressed).through ([.erased .wif] ++
        .called ⟨.save, interrupted⟩ :: eventful)).wallet.store
      { ledger := { network := .testnet } } = .ok restored ∧
    restored.key.scalar = 1 ∧ restored.key.compressed = false ∧
    restored.address.text = "mtoKs9V381UAhUia3d7Vb9GNak8Qvmcsme" := by
  have honline : uncompressed.store ≠ .offline := nofun
  obtain ⟨restored, hrestored, hscalar, hcompressed, haddress, -⟩ :=
    restore_saved uncompressed honline [.erased .wif] eventful interrupted (by decide)
      { ledger := { network := .testnet } }
  refine ⟨restored, hrestored, hscalar, hcompressed, ?_⟩
  rw [haddress]
  decide +kernel

end Wallet

end CashWallet
