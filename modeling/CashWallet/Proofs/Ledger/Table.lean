import CashWallet.Proofs.Ledger.Flights
import Mathlib.Data.List.Nodup

/-!
# The table of current fetches

A well-formed table has one entry for a key at most. An entry is not cancelled, and no two have the
same generation. Beginning, giving up and cancelling keep a table well-formed, and in a well-formed
table a fetch may write exactly if its key has its generation.
-/

namespace CashWallet

namespace Flights

variable {f : Flights} {key key' : CacheKey} {g : Nat}

theorem generation?_abandon (f : Flights) (key key' : CacheKey) (g : Nat) :
    (f.abandon key g).generation? key' =
      if key' = key ∧ f.generation? key = some g then Option.none else f.generation? key' := by
  unfold abandon
  by_cases hcurrent : f.generation? key = some g
  · rw [if_pos hcurrent, generation?_clear]
    simp only [hcurrent, and_true]
  · rw [if_neg hcurrent, if_neg fun h => hcurrent h.2]

theorem abandon_of_ne (h : f.generation? key ≠ some g) : f.abandon key g = f :=
  if_neg h

theorem abandon_of_eq (h : f.generation? key = some g) : f.abandon key g = f.clear key :=
  if_pos h

theorem isCancelled_begin :
    (f.begin key).2.isCancelled g = true ↔
      f.generation? key = some g ∨ f.isCancelled g = true := by
  simp [begin, isCancelled]

theorem isCancelled_cancelAll :
    f.cancelAll.isCancelled g = true ↔ (∃ key, (key, g) ∈ f.current) ∨ f.isCancelled g = true := by
  simp [cancelAll, isCancelled]

/-- What is true of the current fetches and of the cancelled ones, whatever steps led to them. -/
structure WellFormed (f : Flights) : Prop where
  keys : (f.current.map Prod.fst).Nodup
  live : ∀ {key g}, f.generation? key = some g → f.isCancelled g = false
  apart : ∀ {key key' g}, f.generation? key = some g → f.generation? key' = some g → key = key'
  started : ∀ {key g}, f.generation? key = some g → g < f.nextGeneration
  issued : ∀ {g}, f.isCancelled g = true → g < f.nextGeneration

namespace WellFormed

theorem none : WellFormed Flights.none where
  keys := List.nodup_nil
  live := nofun
  apart := nofun
  started := nofun
  issued := nofun

theorem generation?_of_mem (h : f.WellFormed) (hmem : (key, g) ∈ f.current) :
    f.generation? key = some g := by
  obtain ⟨before, after, hsplit⟩ := List.append_of_mem hmem
  refine List.lookup_eq_some_iff.2 ⟨before, after, hsplit, ?_⟩
  intro entry hentry
  have hkeys := h.keys
  rw [hsplit, List.map_append, List.map_cons] at hkeys
  have hfresh : key ∉ before.map Prod.fst :=
    fun hkey => (List.nodup_append.1 hkeys).2.2 key hkey key List.mem_cons_self rfl
  rw [bne_iff_ne]
  rintro rfl
  exact hfresh (List.mem_map_of_mem hentry)

theorem isCurrent_iff (h : f.WellFormed) :
    f.isCurrent key g = true ↔ f.generation? key = some g := by
  rw [isCurrent, Bool.and_eq_true_iff, beq_iff_eq]
  constructor
  · exact And.left
  · intro hcurrent
    rw [h.live hcurrent]
    exact ⟨hcurrent, rfl⟩

theorem clear (h : f.WellFormed) (key : CacheKey) : (f.clear key).WellFormed where
  keys := h.keys.sublist (List.filter_sublist.map Prod.fst)
  live hg := h.live (f.generation?_of_clear key hg)
  apart hg hg' := h.apart (f.generation?_of_clear key hg) (f.generation?_of_clear key hg')
  started hg := h.started (f.generation?_of_clear key hg)
  issued := h.issued

theorem abandon (h : f.WellFormed) (key : CacheKey) (g : Nat) : (f.abandon key g).WellFormed := by
  unfold Flights.abandon
  split
  · exact h.clear key
  · exact h

/-- The new entry has a generation that no entry had, and takes the place of a cancelled one. -/
theorem begin (h : f.WellFormed) (key : CacheKey) : (f.begin key).2.WellFormed := by
  have hentry : ∀ {key' g}, (f.begin key).2.generation? key' = some g →
      (key' = key ∧ g = f.nextGeneration) ∨ (key' ≠ key ∧ f.generation? key' = some g) := by
    intro key' g hg
    rw [generation?_begin] at hg
    split at hg
    · next hkey => exact Or.inl ⟨hkey, (Option.some_inj.1 hg).symm⟩
    · next hkey => exact Or.inr ⟨hkey, hg⟩
  have hissued : ∀ {g}, (f.begin key).2.isCancelled g = true → g < f.nextGeneration := by
    intro g hg
    rcases isCancelled_begin.1 hg with hg | hg
    · exact h.started hg
    · exact h.issued hg
  constructor
  · refine List.nodup_cons.2 ⟨?_, (h.clear key).keys⟩
    intro hkey
    obtain ⟨entry, hmem, rfl⟩ := List.mem_map.1 hkey
    have hne := (List.mem_filter.1 hmem).2
    rw [bne_self_eq_false] at hne
    cases hne
  · intro key' g hg
    rw [Bool.eq_false_iff]
    intro hcancelled
    rcases hentry hg with ⟨-, rfl⟩ | ⟨hkey, hg⟩
    · exact absurd (hissued hcancelled) (Nat.lt_irrefl _)
    · rcases isCancelled_begin.1 hcancelled with hold | hold
      · exact hkey (h.apart hg hold)
      · rw [h.live hg] at hold
        cases hold
  · intro key₁ key₂ g hg₁ hg₂
    rcases hentry hg₁ with ⟨hkey₁, hnew₁⟩ | ⟨-, hold₁⟩ <;>
      rcases hentry hg₂ with ⟨hkey₂, hnew₂⟩ | ⟨-, hold₂⟩
    · rw [hkey₁, hkey₂]
    · exact absurd (h.started hold₂) (by rw [hnew₁]; exact Nat.lt_irrefl _)
    · exact absurd (h.started hold₁) (by rw [hnew₂]; exact Nat.lt_irrefl _)
    · exact h.apart hold₁ hold₂
  · intro key' g hg
    rcases hentry hg with ⟨-, rfl⟩ | ⟨-, hg⟩
    · exact Nat.lt_succ_self _
    · exact Nat.lt_succ_of_lt (h.started hg)
  · intro g hg
    exact Nat.lt_succ_of_lt (hissued hg)

theorem cancelAll (h : f.WellFormed) : f.cancelAll.WellFormed where
  keys := List.nodup_nil
  live := nofun
  apart := nofun
  started := nofun
  issued hg := by
    rcases isCancelled_cancelAll.1 hg with ⟨key, hmem⟩ | hg
    · exact h.started (h.generation?_of_mem hmem)
    · exact h.issued hg

end WellFormed

end Flights

theorem CacheStore.store_error {s : CacheStore} {key : CacheKey} {backend : String} {value : Json}
    {fault : LedgerError} (h : s.store key backend value = .error fault) :
    fault = .storeOffline := by
  cases s <;> cases h
  rfl

/-- A fetch is cancelled by others only, never by what is replied to it. -/
theorem Fetch.read_ne_cancelled {α : Type} (f : Fetch α) (outcome : Outcome) :
    f.read outcome ≠ .error .cancelled := by
  intro h
  unfold read at h
  cases hdocument : outcome.document f.url with
  | error fault =>
      rw [hdocument] at h
      cases h
      unfold Outcome.document at hdocument
      repeat' split at hdocument
      all_goals cases hdocument
  | ok payload =>
      rw [hdocument] at h
      change (f.decode payload).mapError LedgerError.mismatch = .error .cancelled at h
      cases hdecode : f.decode payload <;> rw [hdecode] at h <;> cases h

namespace LedgerClient

variable {α : Type} {f : Fetch α} {g : Nat} {s : LedgerState}

theorem received_of_cancelled (h : s.flights.isCancelled g = true) (outcome : Outcome) :
    received f g outcome s = .ended (.error .cancelled) :=
  if_pos h

theorem received_of_ok (h : s.flights.isCancelled g = false) {outcome : Outcome} {value : α}
    (hread : f.read outcome = .ok value) : received f g outcome s = .arrived g value := by
  rw [received, h, hread]
  rfl

theorem received_of_error (h : s.flights.isCancelled g = false) {outcome : Outcome}
    {fault : LedgerError} (hread : f.read outcome = .error fault) :
    received f g outcome s = .failing g fault := by
  rw [received, h, hread]
  rfl

variable (c : LedgerClient) {value : α}

theorem committed_of_stored (h : s.flights.isCurrent f.key g = true) {store : CacheStore}
    (hstore : s.store.store f.key c.schema.name (f.encode value) = .ok store) :
    c.committed f g value s = (.ended (.ok value), ⟨s.flights.clear f.key, store⟩) := by
  simp only [committed, LedgerState.commit, h, hstore, if_true]

theorem committed_of_unstored (h : s.flights.isCurrent f.key g = true) {fault : LedgerError}
    (hstore : s.store.store f.key c.schema.name (f.encode value) = .error fault) :
    c.committed f g value s =
      (.failing g .storeOffline, ⟨s.flights.clear f.key, s.store⟩) := by
  rw [CacheStore.store_error hstore] at hstore
  simp only [committed, LedgerState.commit, h, hstore, if_true]

theorem committed_of_stale (h : s.flights.isCurrent f.key g = false) :
    c.committed f g value s = (.ended (.error .cancelled), s) := by
  simp only [committed, LedgerState.commit, h, Bool.false_eq_true, if_false]

end LedgerClient

end CashWallet
