import CashWallet.Ledger.Fetch
import Mathlib.Logic.Function.Basic

/-!
# Fetches side by side

Fetches that share a ledger state go their ways at the same time: each begins, gets its reply, and
commits its value or is abandoned, and between any two of these steps others may take theirs or all
may be cancelled. Every order of the steps is a trace. The reply to a fetch that was cancelled may
be anything, since it is not looked at.
-/

namespace CashWallet

namespace Fetch

/-- Where a fetch stands. -/
inductive Phase (α : Type) where
  | idle
  | waiting (generation : Nat)
  /-- The value is there, to be committed. -/
  | arrived (generation : Nat) (value : α)
  /-- There will be no value; the fetch is to be abandoned. -/
  | failing (generation : Nat) (fault : LedgerError)
  | ended (result : Except LedgerError α)

/-- A step that a fetch takes at once. -/
inductive Move where
  | begin
  | reply (outcome : Outcome)
  | commit
  | abandon

/-- The generation of a fetch that is under way. -/
def Phase.generation? : Phase α → Option Nat
  | idle => none
  | waiting generation => some generation
  | arrived generation _ => some generation
  | failing generation _ => some generation
  | ended _ => none

end Fetch

namespace LedgerClient

open Fetch (Phase Move)

/-- What a reply makes of a fetch. -/
def received (f : Fetch α) (generation : Nat) (outcome : Outcome) (s : LedgerState) : Phase α :=
  if s.flights.isCancelled generation then .ended (.error .cancelled)
  else
    match f.read outcome with
    | .ok value => .arrived generation value
    | .error fault => .failing generation fault

/-- Let the value of a fetch be committed. -/
def committed (c : LedgerClient) (f : Fetch α) (generation : Nat) (value : α) (s : LedgerState) :
    Phase α × LedgerState :=
  match s.commit f.key generation c.schema.name (f.encode value) with
  | (.ok (), s) => (.ended (.ok value), s)
  | (.error .cancelled, s) => (.ended (.error .cancelled), s)
  | (.error fault, s) => (.failing generation fault, s)

/-- The steps of a fetch. Each is possible in one phase only. -/
def move? (c : LedgerClient) (f : Fetch α) : Phase α → Move → LedgerState →
    Option (Phase α × LedgerState)
  | .idle, .begin, s => some (.waiting (s.begin f.key).1, (s.begin f.key).2)
  | .waiting generation, .reply outcome, s => some (received f generation outcome s, s)
  | .arrived generation value, .commit, s => some (c.committed f generation value s)
  | .failing generation fault, .abandon, s =>
    some (.ended (.error fault), s.abandon f.key generation)
  | _, _, _ => none

end LedgerClient

/-- Any number of fetches, of whatever values, from one backend. -/
structure Traffic (ι : Type) where
  client : LedgerClient
  Value : ι → Type
  fetch : (i : ι) → Fetch (Value i)

namespace Traffic

variable {ι : Type}

/-- What happens next: one of the fetches takes a step, or all are cancelled. -/
inductive Event (ι : Type) where
  | move (i : ι) (step : Fetch.Move)
  | cancelAll

structure State (t : Traffic ι) where
  ledger : LedgerState
  phase : (i : ι) → Fetch.Phase (t.Value i)

/-- No fetch has begun. -/
def start (t : Traffic ι) (store : CacheStore) : t.State :=
  ⟨.ofStore store, fun _ => .idle⟩

def key (t : Traffic ι) (i : ι) : CacheKey := (t.fetch i).key

variable [DecidableEq ι]

/-- One fetch is in another phase, and the ledger state in another state. -/
def State.put {t : Traffic ι} (s : t.State) (i : ι) (phase : Fetch.Phase (t.Value i))
    (ledger : LedgerState) : t.State :=
  ⟨ledger, Function.update s.phase i phase⟩

theorem State.put_phase_self {t : Traffic ι} (s : t.State) (i : ι)
    (phase : Fetch.Phase (t.Value i)) (ledger : LedgerState) :
    (s.put i phase ledger).phase i = phase :=
  Function.update_self ..

theorem State.put_phase_ne {t : Traffic ι} (s : t.State) {i j : ι} (h : j ≠ i)
    (phase : Fetch.Phase (t.Value i)) (ledger : LedgerState) :
    (s.put i phase ledger).phase j = s.phase j :=
  Function.update_of_ne h ..

/-- What is true of all phases and of the new one is true of all phases afterwards. -/
theorem State.put_forall {t : Traffic ι} {P : (i : ι) → Fetch.Phase (t.Value i) → Prop}
    {s : t.State} (h : ∀ j, P j (s.phase j)) {i : ι} {phase : Fetch.Phase (t.Value i)}
    (hi : P i phase) (ledger : LedgerState) (j : ι) : P j ((s.put i phase ledger).phase j) := by
  by_cases hj : j = i
  · subst hj
    rwa [put_phase_self]
  · rw [put_phase_ne s hj]
    exact h j

def step (t : Traffic ι) (s : t.State) : Event ι → Option t.State
  | .move i m => do
    let (phase, ledger) ← t.client.move? (t.fetch i) (s.phase i) m s.ledger
    return s.put i phase ledger
  | .cancelAll => some { s with ledger := s.ledger.cancelAll }

/-- An event with the states before and after it. -/
structure Transition (t : Traffic ι) where
  before : t.State
  event : Event ι
  after : t.State

/-- The events of a trace follow one another, the latest at the end. -/
inductive Trace (t : Traffic ι) (start : t.State) : List t.Transition → t.State → Prop where
  | nil : Trace t start [] start
  | snoc {trace s event s'} (h : Trace t start trace s) (next : t.step s event = some s') :
      Trace t start (trace ++ [⟨s, event, s'⟩]) s'

/-- Let events follow a trace, if each is possible in its turn. -/
def follow (t : Traffic ι) : List t.Transition × t.State → List (Event ι) →
    Option (List t.Transition × t.State)
  | traced, [] => some traced
  | (trace, s), event :: events =>
    (t.step s event).bind fun s' => t.follow (trace ++ [⟨s, event, s'⟩], s') events

theorem Trace.follow {t : Traffic ι} {start s : t.State} {trace : List t.Transition}
    {events : List (Event ι)} {traced : List t.Transition × t.State} (h : Trace t start trace s)
    (hfollow : t.follow (trace, s) events = some traced) : Trace t start traced.1 traced.2 := by
  induction events generalizing trace s with
  | nil =>
      cases hfollow
      exact h
  | cons event events ih =>
      obtain ⟨s', hstep, hrest⟩ := Option.bind_eq_some_iff.1 hfollow
      exact ih (h.snoc hstep) hrest

/-- The value that an event puts into the cache, with the fetch that it is of. -/
def Transition.write? {t : Traffic ι} (u : t.Transition) : Option (Σ i, t.Value i) :=
  match u.event with
  | .move i .commit =>
    match u.before.phase i with
    | .arrived generation value =>
      match (u.before.ledger.commit (t.key i) generation t.client.schema.name
        ((t.fetch i).encode value)).1 with
      | .ok () => some ⟨i, value⟩
      | .error _ => none
    | _ => none
  | _ => none

def writes {t : Traffic ι} (trace : List t.Transition) : List (Σ i, t.Value i) :=
  trace.filterMap Transition.write?

def Event.begun? : Event ι → Option ι
  | .move i .begin => some i
  | _ => none

/-- The fetches of a trace in the order in which they began. -/
def begins {t : Traffic ι} (trace : List t.Transition) : List ι :=
  trace.filterMap fun u => u.event.begun?

/-- An event after which no earlier fetch of a key may write: another fetch of the key begins, or
all are cancelled. -/
def Displaces (t : Traffic ι) (event : Event ι) (key : CacheKey) : Prop :=
  event = .cancelAll ∨ ∃ j, event = .move j .begin ∧ t.key j = key

/-- A fetch has begun and has not been displaced since. -/
def Undisplaced {t : Traffic ι} (trace : List t.Transition) (i : ι) : Prop :=
  ∃ earlier u later, trace = earlier ++ u :: later ∧ u.event = .move i .begin ∧
    ∀ v ∈ later, ¬ t.Displaces v.event (t.key i)

end Traffic

end CashWallet
