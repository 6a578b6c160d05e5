import CashWallet.Ledger.Traffic

/-!
# Single steps of fetches

What beginning, clearing, abandoning and cancelling do to the current fetches, and what a commit and
a reply come to.
-/

namespace CashWallet

namespace Flights

variable (f : Flights) (key : CacheKey) (generation : Nat)

theorem generation?_clear (key' : CacheKey) :
    (f.clear key).generation? key' = if key' = key then Option.none else f.generation? key' := by
  rw [generation?, generation?, clear]
  exact Entries.lookup_filter_ne f.current key' key

theorem generation?_begin (key' : CacheKey) :
    (f.begin key).2.generation? key' =
      if key' = key then some f.nextGeneration else f.generation? key' := by
  by_cases hkey : key' = key
  · subst hkey
    rw [if_pos rfl]
    exact List.lookup_cons_self
  · have hclear := f.generation?_clear key key'
    rw [if_neg hkey] at hclear ⊢
    rw [← hclear]
    have hne : (key' == key) = false := by simp [hkey]
    simp only [generation?, begin, List.lookup_cons, hne]

theorem generation?_of_clear {key' : CacheKey} {g : Nat}
    (h : (f.clear key).generation? key' = some g) : f.generation? key' = some g := by
  rw [generation?_clear] at h
  split at h
  · cases h
  · exact h

/-- Giving up a fetch at most clears its key. -/
theorem generation?_of_abandon {key' : CacheKey} {g : Nat}
    (h : (f.abandon key generation).generation? key' = some g) : f.generation? key' = some g := by
  unfold abandon at h
  split at h
  · exact f.generation?_of_clear key h
  · exact h

theorem nextGeneration_abandon : (f.abandon key generation).nextGeneration = f.nextGeneration := by
  unfold abandon
  split <;> rfl

end Flights

namespace LedgerState

/-- A commit writes the value of a current fetch, or leaves the cache as it is. -/
theorem commit_cases (s : LedgerState) (key : CacheKey) (generation : Nat) (backend : String)
    (value : Json) :
    (∃ store, s.flights.isCurrent key generation = true ∧
      s.store.store key backend value = .ok store ∧
      s.commit key generation backend value = (.ok (), ⟨s.flights.clear key, store⟩)) ∨
    ∃ fault flights, (flights = s.flights ∨ flights = s.flights.clear key) ∧
      s.commit key generation backend value = (.error fault, ⟨flights, s.store⟩) := by
  unfold commit
  split
  · next hcurrent =>
      cases hstore : s.store.store key backend value with
      | ok store => exact Or.inl ⟨store, hcurrent, rfl, rfl⟩
      | error fault => exact Or.inr ⟨fault, _, Or.inr rfl, rfl⟩
  · exact Or.inr ⟨_, _, Or.inl rfl, rfl⟩

end LedgerState

namespace LedgerClient

open Fetch (Phase)

variable {α : Type}

/-- A reply neither begins a fetch nor lets it return a value. -/
theorem received_quiet (f : Fetch α) (generation : Nat) (outcome : Outcome) (s : LedgerState) :
    (∀ g, (received f generation outcome s).generation? = some g → generation = g) ∧
      received f generation outcome s ≠ .idle ∧
      ∀ value, received f generation outcome s ≠ .ended (.ok value) := by
  unfold received
  split
  · exact ⟨nofun, nofun, nofun⟩
  · split
    · exact ⟨fun _ h => Option.some_inj.1 h, nofun, nofun⟩
    · exact ⟨fun _ h => Option.some_inj.1 h, nofun, nofun⟩

/-- A fetch returns its value exactly if its commit wrote it. -/
theorem committed_cases (c : LedgerClient) (f : Fetch α) (generation : Nat) (value : α)
    (s : LedgerState) :
    (∃ store, s.flights.isCurrent f.key generation = true ∧
      s.store.store f.key c.schema.name (f.encode value) = .ok store ∧
      (s.commit f.key generation c.schema.name (f.encode value)).1 = .ok () ∧
      c.committed f generation value s =
        (.ended (.ok value), ⟨s.flights.clear f.key, store⟩)) ∨
    ∃ fault flights phase, (flights = s.flights ∨ flights = s.flights.clear f.key) ∧
      (phase = .ended (.error .cancelled) ∨ phase = .failing generation fault) ∧
      (s.commit f.key generation c.schema.name (f.encode value)).1 = .error fault ∧
      c.committed f generation value s = (phase, ⟨flights, s.store⟩) := by
  unfold committed
  rcases s.commit_cases f.key generation c.schema.name (f.encode value) with
    ⟨store, hcurrent, hstore, hcommit⟩ | ⟨fault, flights, hflights, hcommit⟩
  · rw [hcommit]
    exact Or.inl ⟨store, hcurrent, hstore, rfl, rfl⟩
  · rw [hcommit]
    refine Or.inr ⟨fault, flights, ?_⟩
    split
    · next heq => cases heq
    · next heq =>
        cases heq
        exact ⟨_, hflights, Or.inl rfl, rfl, rfl⟩
    · next heq =>
        cases heq
        exact ⟨_, hflights, Or.inr rfl, rfl, rfl⟩

/-- A fetch settles by its commit, and by being abandoned if the cache could not be written. -/
theorem settle_cases (c : LedgerClient) (f : Fetch α) (generation : Nat) (value : α)
    (s : LedgerState) :
    (∃ result s', c.committed f generation value s = (.ended result, s') ∧
      c.settle f generation value s = (result, s')) ∨
    ∃ fault s', c.committed f generation value s = (.failing generation fault, s') ∧
      c.settle f generation value s = (.error fault, s'.abandon f.key generation) := by
  unfold committed settle
  obtain ⟨⟨fault⟩ | ⟨⟩, s'⟩ := s.commit f.key generation c.schema.name (f.encode value)
  · cases fault with
    | cancelled => exact Or.inl ⟨_, _, rfl, rfl⟩
    | _ => exact Or.inr ⟨_, _, rfl, rfl⟩
  · exact Or.inl ⟨_, _, rfl, rfl⟩

end LedgerClient

end CashWallet
