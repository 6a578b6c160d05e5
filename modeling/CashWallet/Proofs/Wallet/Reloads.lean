import CashWallet.Proofs.Cache.ReadBack
import CashWallet.Proofs.Ledger.Exchange
import CashWallet.Proofs.Ledger.Flights
import CashWallet.Proofs.Wallet.Course
import CashWallet.Wallet.Session

/-!
# Reloads that fail

A fetch writes the cache as its last step, and only with a value in hand: if it fails, at whatever
step, the cache is what it was. So a reload of one part that fails leaves all that a wallet tells as
it was. The rates are reloaded by two fetches, and the first has written the cache before the second
begins: if the second fails, the rate in dollars is the new one.
-/

namespace CashWallet

/-- How a fetch leaves a store: with the value that came, or as it was if none came. -/
inductive CacheStore.Settled {ε α : Type} (write : α → Except LedgerError CacheStore)
    (s : CacheStore) : Except ε α → CacheStore → Prop
  | written {value : α} {s' : CacheStore} (h : write value = .ok s') :
      Settled write s (.ok value) s'
  | kept (fault : ε) : Settled write s (.error fault) s

namespace CacheStore

variable {ε ε' α : Type} {write : α → Except LedgerError CacheStore} {s s' : CacheStore}

theorem Settled.mapError {result : Except ε α} (h : Settled write s result s') (f : ε → ε') :
    Settled write s (result.mapError f) s' := by
  cases h with
  | written hwrite => exact .written hwrite
  | kept fault => exact .kept (f fault)

theorem Settled.eq_of_error {fault : ε} (h : Settled write s (.error fault) s') : s' = s := by
  cases h
  rfl

theorem Settled.of_ok {value : α} (h : Settled write s (.ok value : Except ε α) s') :
    write value = .ok s' := by
  cases h with
  | written hwrite => exact hwrite

theorem load?_of_entry_eq {key : CacheKey} (h : s'.entry? key = s.entry? key)
    (decode : Json → Option α) : s'.load? key decode = s.load? key decode := by
  rw [load?, load?, h]

end CacheStore

open CacheStore (Settled)

/-! ## Single fetches -/

/-- How the value of a fetch is written to a store. -/
def LedgerClient.write {α : Type} (c : LedgerClient) (f : Fetch α) (s : CacheStore) (value : α) :
    Except LedgerError CacheStore :=
  s.store f.key c.schema.name (f.encode value)

namespace LedgerClient

variable {α : Type} (c : LedgerClient) (f : Fetch α)

theorem settle_settled (generation : Nat) (value : α) (s : LedgerState) :
    Settled (c.write f s.store) s.store (c.settle f generation value s).1
      (c.settle f generation value s).2.store := by
  unfold settle
  rcases s.commit_cases f.key generation c.schema.name (f.encode value) with
    ⟨store, -, hstore, hcommit⟩ | ⟨fault, flights, -, hcommit⟩
  · rw [hcommit]
    exact .written hstore
  · rw [hcommit]
    cases fault <;> exact .kept _

theorem finish_settled (generation : Nat) (outcome : Outcome) (s : LedgerState) :
    Settled (c.write f s.store) s.store (c.finish f generation outcome s).1
      (c.finish f generation outcome s).2.store := by
  unfold finish
  split
  · exact .kept _
  · split
    · exact c.settle_settled f generation _ s
    · exact .kept _

theorem fetch_settled (s : LedgerState) :
    (c.fetch f s).Ends fun r => Settled (c.write f s.store) s.store r.1 r.2.store := by
  apply Exchange.ends_ask
  intro outcome
  apply Exchange.ends_done
  exact c.finish_settled f _ outcome (s.begin f.key).2

end LedgerClient

theorem Market.fetch_settled {α : Type} (m : Market) (url : String)
    (decode : Json → Except LedgerError α) (write : CacheStore → α → Except LedgerError CacheStore)
    (s : CacheStore) :
    (m.fetch url decode write s).Ends fun r => Settled (write s) s r.1 r.2 := by
  apply Exchange.ends_ask
  intro outcome
  apply Exchange.ends_done
  split
  · exact .kept _
  · next hvalue =>
      split
      · next hwrite => exact .written hwrite
      · exact .kept _

theorem Market.fetchFees_settled (m : Market) (s : CacheStore) :
    (m.fetchFees s).Ends fun r =>
      Settled (fun fees => s.store .fees backendName fees.toJson) s r.1 r.2 :=
  m.fetch_settled m.config.feesUrl decodeFees
    (fun store fees => store.store .fees backendName fees.toJson) s

/-- A rate is written as its text. -/
theorem Market.fetchRate_settled (m : Market) (url pointer : String) (key : CacheKey)
    (s : CacheStore) :
    (m.fetchRate url pointer key s).Ends fun r =>
      Settled (s.storeRate key backendName) s r.1 r.2 :=
  m.fetch_settled url (decodeRate pointer)
    (fun store rate => store.storeRate key backendName rate) s

theorem Market.fetchUsd_settled (m : Market) (s : CacheStore) :
    (m.fetchUsd s).Ends fun r => Settled (s.storeRate .rateUsd backendName) s r.1 r.2 :=
  m.fetchRate_settled _ _ _ s

theorem Market.fetchBch_settled (m : Market) (s : CacheStore) :
    (m.fetchBch s).Ends fun r => Settled (s.storeRate .rateBch backendName) s r.1 r.2 :=
  m.fetchRate_settled _ _ _ s

namespace Wallet

/-! ## Single reloads -/

/-- A reload of a wallet settles its store and leaves its key, its configuration and its latest
payment alone. -/
structure Reloaded {α : Type} (write : α → Except LedgerError CacheStore) (w : Wallet)
    (result : Except WalletError α) (w' : Wallet) : Prop where
  settled : Settled write w.store result w'.store
  onlyLedger : w' = { w with ledger := w'.ledger }

variable {α : Type} {w w' : Wallet}

theorem Reloaded.kept {write : α → Except LedgerError CacheStore} {result : Except WalletError α}
    (h : Reloaded write w result w') (fault : WalletError)
    (hfault : result.map (fun _ => ()) = .error fault) : w'.store = w.store := by
  cases result with
  | error stop => exact h.settled.eq_of_error
  | ok value => cases hfault

theorem reload_reloaded (w : Wallet) (f : Fetch α) :
    (w.reload f).Ends fun r => Reloaded (w.client.write f w.store) w r.1 r.2 := by
  refine (w.client.fetch_settled f w.ledger).bind ?_
  rintro ⟨result, ledger⟩ hsettled
  apply Exchange.ends_done
  exact ⟨hsettled.mapError _, rfl⟩

theorem runFrom_reloadMarket (w : Wallet)
    (fetch : CacheStore → Exchange (Except LedgerError α × CacheStore))
    (answer : List Request → Outcome) (asked : List Request) :
    (w.reloadMarket fetch).runFrom answer asked =
      (((fetch w.store).runFrom answer asked).1.mapError .ledger,
        w.withStore ((fetch w.store).runFrom answer asked).2) := by
  rw [reloadMarket, Exchange.bind_eq, Exchange.runFrom_bind]
  rfl

theorem reloadMarket_reloaded {fetch : CacheStore → Exchange (Except LedgerError α × CacheStore)}
    {write : α → Except LedgerError CacheStore}
    (h : (fetch w.store).Ends fun r => Settled write w.store r.1 r.2) :
    (w.reloadMarket fetch).Ends fun r => Reloaded write w r.1 r.2 := by
  intro answer asked
  rw [runFrom_reloadMarket]
  exact ⟨(h answer asked).mapError _, rfl⟩

/-- If the rates could not be reloaded, either the rate in dollars was not there and the store is
what it was, or it was there and has been written. -/
theorem reloadRates_failed {answer : List Request → Outcome} {fault : WalletError}
    (h : w.reloadRates.run answer = (.error fault, w')) :
    (∃ earlier, ((w.market.fetchUsd w.store).run answer).1 = .error earlier ∧
      w'.store = w.store) ∨
    ∃ usd, ((w.market.fetchUsd w.store).run answer).1 = .ok usd ∧
      w.store.storeRate .rateUsd Market.backendName usd = .ok w'.store := by
  have husd := w.market.fetchUsd_settled w.store answer []
  rw [reloadRates, Exchange.run, Exchange.bind_eq, Exchange.runFrom_bind, runFrom_reloadMarket] at h
  unfold Exchange.run
  generalize Exchange.runFrom answer [] (w.market.fetchUsd w.store) = usdRun at h husd ⊢
  obtain ⟨⟨earlier⟩ | ⟨usd⟩, stored⟩ := usdRun
  · cases h
    exact Or.inl ⟨earlier, rfl, husd.eq_of_error⟩
  · generalize Exchange.requestsFrom answer [] _ = asked at h
    have hbch := reloadMarket_reloaded (w.market.fetchBch_settled (w.withStore stored).store)
      answer asked
    change Exchange.runFrom answer asked
      (((w.withStore stored).reloadMarket w.market.fetchBch).bind _) = _ at h
    rw [Exchange.runFrom_bind] at h
    generalize Exchange.runFrom answer asked (reloadMarket _ _) = bchRun at h hbch
    obtain ⟨⟨fault⟩ | ⟨bch⟩, w₂⟩ := bchRun
    · cases h
      refine Or.inr ⟨usd, rfl, ?_⟩
      rw [hbch.settled.eq_of_error]
      exact husd.of_ok
    · cases h

/-- A part is reloaded by its own reload. -/
theorem ends_reload {x : Exchange (Except WalletError α × Wallet)}
    {P : Except WalletError Unit × Wallet → Prop}
    (h : x.Ends fun r => P (r.1.map fun _ => (), r.2)) :
    (x.bind fun r => .done (r.1.map fun _ => (), r.2)).Ends P :=
  h.bind fun _ => Exchange.ends_done

/-- Every part but the rates is one fetch, which writes the store only if it succeeds. -/
theorem reloadPart_keeps (w : Wallet) {part : Part} (hpart : part ≠ .rates) :
    (w.reloadPart part).Ends fun r => ∀ fault, r.1 = .error fault → r.2.store = w.store := by
  cases part with
  | balance => exact ends_reload ((w.reload_reloaded _).imp fun _ h => h.kept)
  | unspents => exact ends_reload ((w.reload_reloaded _).imp fun _ h => h.kept)
  | transactions => exact ends_reload ((w.reload_reloaded _).imp fun _ h => h.kept)
  | fees =>
      have hfees := reloadMarket_reloaded (w.market.fetchFees_settled w.store)
      exact ends_reload (hfees.imp fun _ h => h.kept)
  | rates => exact absurd rfl hpart

theorem run_reloadPart_rates (w : Wallet) (answer : List Request → Outcome) :
    (w.reloadPart .rates).run answer =
      ((w.reloadRates.run answer).1.map fun _ => (), (w.reloadRates.run answer).2) :=
  Exchange.runFrom_bind answer w.reloadRates _ []

/-! ## What the wallet tells -/

/-- What a wallet tells is what its store holds. -/
theorem view_eq_of_entries (h : ∀ key, w'.store.entry? key = w.store.entry? key) :
    w'.view = w.view := by
  simp only [view, balance, unspents, transactions, fees, rateUsd, rateBch,
    CacheStore.balance?, CacheStore.unspents?, CacheStore.transactions?, CacheStore.fees?,
    CacheStore.usd?, CacheStore.bch?, CacheStore.loadAmount?, CacheStore.loadRate?,
    CacheStore.loadText?, CacheStore.load?_of_entry_eq (h _)]

theorem view_eq_of_store (h : w'.store = w.store) : w'.view = w.view :=
  view_eq_of_entries fun key => by rw [h]

/-- A wallet whose store has got a rate in dollars tells that rate, as its text is read, and all
else as before. -/
theorem view_of_storeRate {usd : Binary64}
    (h : w.store.storeRate .rateUsd Market.backendName usd = .ok w'.store) :
    w'.view =
      { w.view with rateUsd := (Binary64.ofText? (usd.format .plain)).getD (.zero false) } := by
  have husd : w'.store.usd? = Binary64.ofText? (usd.format .plain) := by
    rw [CacheStore.usd?, CacheStore.loadRate?, CacheStore.loadText?,
      CacheStore.load?_of_store h rfl .same]
    rfl
  have hother (key : CacheKey) (hkey : .rateUsd ≠ key) {α : Type} (decode : Json → Option α) :
      w'.store.load? key decode = w.store.load? key decode :=
    CacheStore.load?_of_entry_eq (CacheStore.entry?_set_of_ne hkey h) decode
  simp only [view, balance, unspents, transactions, fees, rateUsd, rateBch, husd,
    CacheStore.balance?, CacheStore.unspents?, CacheStore.transactions?, CacheStore.fees?,
    CacheStore.bch?, CacheStore.loadAmount?, CacheStore.loadRate?, CacheStore.loadText?,
    hother .balance (by decide), hother .unspents (by decide),
    hother .transactions (by decide), hother .fees (by decide),
    hother .rateBch (by decide)]

/-- A reload that fails leaves all that the wallet tells as it was, with one exception: if the rates
are reloaded, and the rate in dollars is there before the other one fails, then that rate is what
the wallet tells from then on. -/
theorem reloadPart_failed {part : Part} {answer : List Request → Outcome} {fault : WalletError}
    (h : (w.reloadPart part).run answer = (.error fault, w')) :
    ((∀ usd, part = .rates → ((w.market.fetchUsd w.store).run answer).1 ≠ .ok usd) →
      w'.view = w.view) ∧
    ∀ usd, part = .rates → ((w.market.fetchUsd w.store).run answer).1 = .ok usd →
      w'.view =
        { w.view with rateUsd := (Binary64.ofText? (usd.format .plain)).getD (.zero false) } := by
  by_cases hpart : part = .rates
  · subst hpart
    rw [run_reloadPart_rates] at h
    generalize hrates : w.reloadRates.run answer = r at h
    obtain ⟨⟨stop⟩ | ⟨rates⟩, after⟩ := r
    · cases h
      rcases reloadRates_failed hrates with ⟨earlier, husd, hstore⟩ | ⟨usd, husd, hstore⟩
      · constructor
        · intro _
          exact view_eq_of_store hstore
        · intro usd _ hread
          cases husd.symm.trans hread
      · constructor
        · intro hnone
          exact absurd husd (hnone usd rfl)
        · intro usd' _ hread
          cases husd.symm.trans hread
          exact view_of_storeRate hstore
    · cases h
  · have hkept := w.reloadPart_keeps hpart answer []
    constructor
    · intro _
      apply view_eq_of_store
      change (w.reloadPart part).runFrom answer [] = _ at h
      rw [h] at hkept
      exact hkept fault rfl
    · intro usd hrates
      exact absurd hrates hpart

/-- The rate in dollars is told, and then the backend is down. -/
def interrupted (asked : List Request) : Outcome :=
  if asked.length = 1 then .reply 200 "\x7b\"USD\":\x7b\"15m\":2\x7d\x7d" else .reply 500 "down"

theorem exists_interrupted : ∃ fault w',
    (fresh.reloadPart .rates).run interrupted = (.error fault, w') := by
  have herror : ((fresh.reloadPart .rates).run interrupted).1.toBool = false := by decide +kernel
  generalize (fresh.reloadPart .rates).run interrupted = r at herror ⊢
  obtain ⟨⟨fault⟩ | ⟨rates⟩, w'⟩ := r
  · exact ⟨fault, w', rfl⟩
  · cases herror

theorem reloadPart_failed_interrupted : ∃ fault w' usd,
    (fresh.reloadPart .rates).run interrupted = (.error fault, w') ∧
    ((fresh.market.fetchUsd fresh.store).run interrupted).1 = .ok usd ∧
    w'.view =
      { fresh.view with rateUsd := (Binary64.ofText? (usd.format .plain)).getD (.zero false) } := by
  obtain ⟨fault, w', hrun⟩ := exists_interrupted
  have husd : ((fresh.market.fetchUsd fresh.store).run interrupted).1.toBool = true := by
    decide +kernel
  cases hfetched : ((fresh.market.fetchUsd fresh.store).run interrupted).1 with
  | error stop =>
      rw [hfetched] at husd
      cases husd
  | ok usd => exact ⟨fault, w', usd, hrun, rfl, (reloadPart_failed hrun).2 usd rfl hfetched⟩

/-- So not every reload that fails leaves all that the wallet tells as it was. -/
theorem reloadPart_failed_changes : ¬ ∀ (w w' : Wallet) (part : Part)
    (answer : List Request → Outcome) (fault : WalletError),
    (w.reloadPart part).run answer = (.error fault, w') → w'.view = w.view := by
  intro h
  obtain ⟨fault, w', hrun⟩ := exists_interrupted
  have hrate : ((fresh.reloadPart .rates).run interrupted).2.rateUsd ≠ fresh.rateUsd := by
    decide +kernel
  rw [hrun] at hrate
  exact hrate (congrArg View.rateUsd (h fresh w' .rates interrupted fault hrun))

end Wallet

end CashWallet
