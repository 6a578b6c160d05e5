import CashWallet.Cache.Entry

/-!
# Fetches under way

At most one fetch of each cache key is current. A new one takes the place of the one before it, and
only a fetch that is still current when its value is there writes the cache. Each fetch has a
generation of its own. Beginning, committing, abandoning and cancelling are single steps.
-/

namespace CashWallet

/-- The current fetch of each key, and the fetches that have been cancelled. -/
structure Flights where
  nextGeneration : Nat
  current : List (CacheKey × Nat)
  cancelled : List Nat
  deriving DecidableEq, Repr

namespace Flights

def none : Flights := ⟨1, [], []⟩

instance : Inhabited Flights := ⟨none⟩

def generation? (f : Flights) (key : CacheKey) : Option Nat :=
  f.current.lookup key

def isCancelled (f : Flights) (generation : Nat) : Bool :=
  f.cancelled.contains generation

/-- The fetch of a generation may write. -/
def isCurrent (f : Flights) (key : CacheKey) (generation : Nat) : Bool :=
  f.generation? key == some generation && !f.isCancelled generation

def clear (f : Flights) (key : CacheKey) : Flights :=
  { f with current := f.current.filter fun entry => entry.1 != key }

/-- A new fetch, which cancels the one before it. -/
def begin (f : Flights) (key : CacheKey) : Nat × Flights :=
  (f.nextGeneration,
    { nextGeneration := f.nextGeneration + 1
      current := (key, f.nextGeneration) :: (f.clear key).current
      cancelled := (f.generation? key).toList ++ f.cancelled })

/-- Give up a fetch that is still the one of its key. -/
def abandon (f : Flights) (key : CacheKey) (generation : Nat) : Flights :=
  if f.generation? key = some generation then f.clear key else f

/-- Cancel all fetches. -/
def cancelAll (f : Flights) : Flights :=
  { f with current := [], cancelled := f.current.map (·.2) ++ f.cancelled }

end Flights

/-- The fetches under way and the cache that they write. -/
structure LedgerState where
  flights : Flights
  store : CacheStore

namespace LedgerState

def ofStore (store : CacheStore) : LedgerState := ⟨.none, store⟩

def begin (s : LedgerState) (key : CacheKey) : Nat × LedgerState :=
  let (generation, flights) := s.flights.begin key
  (generation, { s with flights })

/-- Write the value of a fetch, if the fetch is current. Either way it is over. -/
def commit (s : LedgerState) (key : CacheKey) (generation : Nat) (backend : String)
    (value : Json) : Except LedgerError Unit × LedgerState :=
  if s.flights.isCurrent key generation then
    let flights := s.flights.clear key
    match s.store.store key backend value with
    | .ok store => (.ok (), ⟨flights, store⟩)
    | .error fault => (.error fault, ⟨flights, s.store⟩)
  else (.error .cancelled, s)

def abandon (s : LedgerState) (key : CacheKey) (generation : Nat) : LedgerState :=
  { s with flights := s.flights.abandon key generation }

def cancelAll (s : LedgerState) : LedgerState :=
  { s with flights := s.flights.cancelAll }

end LedgerState

end CashWallet
