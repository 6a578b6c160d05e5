import CashWallet.Proofs.Ledger.Flights
import Mathlib.Data.List.Nodup

/-!
# Fetches do not get in each other's way

Whatever the order of the steps is, the cache is written only by fetches that return a value, each
writes once, and the fetches of one key write in the order in which they began. What carries this is
that the generation that is current for a key belongs to the fetch of the key that began last, with
no cancellation since.
-/

namespace CashWallet

namespace Traffic

variable {ι : Type} {t : Traffic ι}

theorem write?_of_ok {u : t.Transition} {i : ι} {generation : Nat} {value : t.Value i}
    (hevent : u.event = .move i .commit) (hphase : u.before.phase i = .arrived generation value)
    (hcommit : (u.before.ledger.commit (t.key i) generation t.client.schema.name
      ((t.fetch i).encode value)).1 = .ok ()) : u.write? = some ⟨i, value⟩ := by
  simp only [Transition.write?, hevent, hphase, hcommit]

theorem write?_of_error {u : t.Transition} {i : ι} {generation : Nat} {value : t.Value i}
    {fault : LedgerError} (hevent : u.event = .move i .commit)
    (hphase : u.before.phase i = .arrived generation value)
    (hcommit : (u.before.ledger.commit (t.key i) generation t.client.schema.name
      ((t.fetch i).encode value)).1 = .error fault) : u.write? = none := by
  simp only [Transition.write?, hevent, hphase, hcommit]

/-! ## What a step adds to a trace -/

theorem filterMap_concat {α β : Type*} (f : α → Option β) (l : List α) (a : α) :
    (l ++ [a]).filterMap f = l.filterMap f ++ (f a).toList := by
  rw [List.filterMap_append, List.filterMap_cons]
  cases f a <;> rfl

theorem sublist_of_fresh {α : Type*} {l m : List α} {a : α} (h : l.Sublist (m ++ [a]))
    (ha : a ∉ l) : l.Sublist m := by
  obtain ⟨l₁, l₂, rfl, h₁, h₂⟩ := List.sublist_append_iff.1 h
  have hnil : l₂ = [] := by
    apply List.eq_nil_iff_forall_not_mem.2
    intro b hb
    rw [List.mem_singleton.1 (h₂.subset hb)] at hb
    exact ha (List.mem_append_right l₁ hb)
  rwa [hnil, List.append_nil]

/-- Two places in a list are the same or one is before the other. -/
theorem places_cases {α : Type*} {l₁ r₁ l₂ r₂ : List α} {a b : α}
    (h : l₁ ++ a :: r₁ = l₂ ++ b :: r₂) :
    (l₁ = l₂ ∧ a = b) ∨ (∃ m, l₁ = l₂ ++ b :: m ∧ r₂ = m ++ a :: r₁) ∨
      ∃ m, l₂ = l₁ ++ a :: m ∧ r₁ = m ++ b :: r₂ := by
  rcases List.append_eq_append_iff.1 h with ⟨m, hm, heq⟩ | ⟨m, hm, heq⟩
  · cases m with
    | nil =>
        cases heq
        exact Or.inl ⟨by rw [hm, List.append_nil], rfl⟩
    | cons c m =>
        cases heq
        exact Or.inr (Or.inr ⟨m, hm, rfl⟩)
  · cases m with
    | nil =>
        cases heq
        exact Or.inl ⟨by rw [hm, List.append_nil], rfl⟩
    | cons c m =>
        cases heq
        exact Or.inr (Or.inl ⟨m, hm, rfl⟩)

theorem writes_concat (trace : List t.Transition) (u : t.Transition) :
    writes (trace ++ [u]) = writes trace ++ u.write?.toList :=
  filterMap_concat _ trace u

theorem begins_concat (trace : List t.Transition) (u : t.Transition) :
    begins (trace ++ [u]) = begins trace ++ u.event.begun?.toList :=
  filterMap_concat _ trace u

theorem begun?_eq_some {event : Event ι} {i : ι} : event.begun? = some i ↔ event = .move i .begin := by
  unfold Event.begun?
  split
  · simp
  · next hne =>
      constructor
      · exact nofun
      · rintro rfl
        exact absurd rfl (hne i)

theorem displaces_move {i : ι} {m : Fetch.Move} {key : CacheKey} :
    t.Displaces (.move i m) key ↔ m = .begin ∧ t.key i = key := by
  constructor
  · rintro (h | ⟨j, h, hkey⟩)
    · cases h
    · cases h
      exact ⟨rfl, hkey⟩
  · rintro ⟨rfl, hkey⟩
    exact Or.inr ⟨i, rfl, hkey⟩

namespace Undisplaced

variable {trace : List t.Transition} {i : ι}

theorem begin (trace : List t.Transition) {u : t.Transition} (h : u.event = .move i .begin) :
    Undisplaced (trace ++ [u]) i :=
  ⟨trace, u, [], rfl, h, nofun⟩

theorem concat (h : Undisplaced trace i) {u : t.Transition}
    (hu : ¬ t.Displaces u.event (t.key i)) : Undisplaced (trace ++ [u]) i := by
  obtain ⟨earlier, b, later, rfl, hbegin, hlater⟩ := h
  refine ⟨earlier, b, later ++ [u], by simp, hbegin, ?_⟩
  intro v hv
  rcases List.mem_append.1 hv with hv | hv
  · exact hlater v hv
  · rw [List.mem_singleton.1 hv]
    exact hu

end Undisplaced

/-! ## Orders -/

/-- The fetches that began under a key, in order. -/
def begun (trace : List t.Transition) (key : CacheKey) : List ι :=
  (begins trace).filter fun i => t.key i = key

/-- The fetches that wrote under a key, in order. -/
def written (trace : List t.Transition) (key : CacheKey) : List ι :=
  ((writes trace).map Sigma.fst).filter fun i => t.key i = key

theorem begun_append (trace later : List t.Transition) (key : CacheKey) :
    begun (trace ++ later) key = begun trace key ++ begun later key := by
  rw [begun, begins, List.filterMap_append, List.filter_append]
  rfl

theorem begun_singleton {u : t.Transition} {i : ι} (h : u.event = .move i .begin) :
    begun [u] (t.key i) = [i] := by
  simp [begun, begins, begun?_eq_some.2 h]

/-- A fetch that has not been displaced is the latest that began under its key. -/
theorem Undisplaced.begun_eq {trace : List t.Transition} {i : ι} (h : Undisplaced trace i) :
    ∃ earlier, begun trace (t.key i) = earlier ++ [i] := by
  obtain ⟨earlier, u, later, rfl, hbegin, hlater⟩ := h
  have hnone : begun later (t.key i) = [] := by
    rw [begun, List.filter_eq_nil_iff]
    intro j hj hkey
    obtain ⟨v, hv, hbegun⟩ := List.mem_filterMap.1 hj
    refine hlater v hv ?_
    rw [begun?_eq_some.1 hbegun, displaces_move]
    exact ⟨rfl, of_decide_eq_true hkey⟩
  refine ⟨begun earlier (t.key i), ?_⟩
  rw [List.append_cons, begun_append, begun_append, hnone, begun_singleton hbegin,
    List.append_nil]

/-! ## What a step can do -/

variable [DecidableEq ι]

/-- The step that each phase admits, with the state that it leads to. -/
inductive Turn (t : Traffic ι) (s : t.State) : Event ι → t.State → Prop
  | begin {i} (idle : s.phase i = .idle) :
      Turn t s (.move i .begin)
        (s.put i (.waiting (s.ledger.begin (t.key i)).1) (s.ledger.begin (t.key i)).2)
  | reply {i generation outcome} (waiting : s.phase i = .waiting generation) :
      Turn t s (.move i (.reply outcome))
        (s.put i (LedgerClient.received (t.fetch i) generation outcome s.ledger) s.ledger)
  | commit {i generation value} (arrived : s.phase i = .arrived generation value) :
      Turn t s (.move i .commit)
        (s.put i (t.client.committed (t.fetch i) generation value s.ledger).1
          (t.client.committed (t.fetch i) generation value s.ledger).2)
  | abandon {i generation fault} (failing : s.phase i = .failing generation fault) :
      Turn t s (.move i .abandon)
        (s.put i (.ended (.error fault)) (s.ledger.abandon (t.key i) generation))
  | cancelAll : Turn t s .cancelAll { s with ledger := s.ledger.cancelAll }

theorem turn_of_step {s s' : t.State} {event : Event ι} (h : t.step s event = some s') :
    t.Turn s event s' := by
  cases event with
  | cancelAll =>
      cases h
      exact .cancelAll
  | move i m =>
      obtain ⟨⟨phase, ledger⟩, hmove, hs'⟩ := Option.bind_eq_some_iff.1 h
      cases hs'
      cases hphase : s.phase i with
      | idle =>
          rw [hphase] at hmove
          cases m <;> cases hmove
          exact .begin hphase
      | waiting generation =>
          rw [hphase] at hmove
          cases m <;> cases hmove
          exact .reply hphase
      | arrived generation value =>
          rw [hphase] at hmove
          cases m with
          | commit =>
              have hcommit := Turn.commit hphase
              rwa [Option.some_inj.1 hmove] at hcommit
          | begin => cases hmove
          | reply outcome => cases hmove
          | abandon => cases hmove
      | failing generation fault =>
          rw [hphase] at hmove
          cases m <;> cases hmove
          exact .abandon hphase
      | ended result =>
          rw [hphase] at hmove
          cases m <;> cases hmove

/-- What a step can do, with the value that it writes. -/
inductive Effect (t : Traffic ι) (s : t.State) :
    Event ι → Option (Σ i, t.Value i) → t.State → Prop
  | begin {i} (idle : s.phase i = .idle) :
      Effect t s (.move i .begin) none
        (s.put i (.waiting (s.ledger.begin (t.key i)).1) (s.ledger.begin (t.key i)).2)
  | write {i generation value store} (arrived : s.phase i = .arrived generation value)
      (current : s.ledger.flights.isCurrent (t.key i) generation = true)
      (stored : s.ledger.store.store (t.key i) t.client.schema.name ((t.fetch i).encode value) =
        .ok store) :
      Effect t s (.move i .commit) (some ⟨i, value⟩)
        (s.put i (.ended (.ok value)) ⟨s.ledger.flights.clear (t.key i), store⟩)
  | quiet {i m flights phase} (silent : m ≠ .begin) (busy : (s.phase i).generation?.isSome)
      (fewer : ∀ key generation, flights.generation? key = some generation →
        s.ledger.flights.generation? key = some generation)
      (next : flights.nextGeneration = s.ledger.flights.nextGeneration)
      (same : ∀ generation, phase.generation? = some generation →
        (s.phase i).generation? = some generation)
      (begun : phase ≠ .idle) (unpaid : ∀ value, phase ≠ .ended (.ok value)) :
      Effect t s (.move i m) none (s.put i phase ⟨flights, s.ledger.store⟩)
  | cancelAll : Effect t s .cancelAll none { s with ledger := s.ledger.cancelAll }

namespace Effect

variable {s s' : t.State} {event : Event ι} {i : ι} {v : t.Value i}

theorem write_event (h : t.Effect s event (some ⟨i, v⟩) s') : event = .move i .commit := by
  cases h
  rfl

theorem write_current (h : t.Effect s event (some ⟨i, v⟩) s') :
    ∃ generation, s.phase i = .arrived generation v ∧
      s.ledger.flights.generation? (t.key i) = some generation := by
  cases h with
  | write arrived current => exact ⟨_, arrived, eq_of_beq (Bool.and_eq_true_iff.1 current).1⟩

theorem stored (h : t.Effect s event (some ⟨i, v⟩) s') :
    s.ledger.store.store (t.key i) t.client.schema.name ((t.fetch i).encode v) =
      .ok s'.ledger.store := by
  cases h with
  | write _ _ stored => exact stored

/-- Without a write the cache stays as it is. -/
theorem store_eq (h : t.Effect s event none s') : s'.ledger.store = s.ledger.store := by
  cases h <;> rfl

end Effect

theorem effect_of_commit {s : t.State} {i : ι} {generation : Nat} {value : t.Value i}
    {phase : Fetch.Phase (t.Value i)} {ledger : LedgerState} {after : t.State}
    (hphase : s.phase i = .arrived generation value)
    (h : t.client.committed (t.fetch i) generation value s.ledger = (phase, ledger)) :
    t.Effect s (.move i .commit) (Transition.write? ⟨s, .move i .commit, after⟩)
      (s.put i phase ledger) := by
  rcases t.client.committed_cases (t.fetch i) generation value s.ledger with
    ⟨store, hcurrent, hstore, hcommit, heq⟩ | ⟨fault, flights, phase', hflights, hend, hcommit, heq⟩
  · cases heq.symm.trans h
    rw [write?_of_ok rfl hphase hcommit]
    exact .write hphase hcurrent hstore
  · cases heq.symm.trans h
    rw [write?_of_error rfl hphase hcommit]
    refine .quiet nofun (by rw [hphase]; rfl) ?_ ?_ ?_ ?_ ?_
    · rcases hflights with rfl | rfl
      · exact fun _ _ hg => hg
      · exact fun _ _ => s.ledger.flights.generation?_of_clear _
    · rcases hflights with rfl | rfl <;> rfl
    · rw [hphase]
      rcases hend with rfl | rfl
      · exact nofun
      · exact fun _ hg => hg
    · rcases hend with rfl | rfl <;> exact nofun
    · rcases hend with rfl | rfl <;> exact nofun

/-- A step does what its effect says, and a transition that takes it writes just that. -/
theorem effect_of_step {s s' : t.State} {event : Event ι} (h : t.step s event = some s') :
    t.Effect s event (Transition.write? ⟨s, event, s'⟩) s' := by
  cases turn_of_step h with
  | begin idle => exact .begin idle
  | @reply i generation outcome waiting =>
      obtain ⟨hsame, hbegun, hunpaid⟩ :=
        LedgerClient.received_quiet (t.fetch i) generation outcome s.ledger
      refine .quiet nofun (by rw [waiting]; rfl) (fun _ _ hg => hg) rfl ?_ hbegun hunpaid
      intro g hg
      rw [waiting, hsame g hg]
      rfl
  | commit arrived => exact effect_of_commit arrived rfl
  | abandon failing =>
      exact .quiet nofun (by rw [failing]; rfl)
        (fun _ _ => s.ledger.flights.generation?_of_abandon _ _)
        (s.ledger.flights.nextGeneration_abandon _ _) nofun nofun nofun
  | cancelAll => exact .cancelAll

/-! ## What holds along a trace -/

/-- What a trace and the state after it have to do with one another. -/
structure Accounted (t : Traffic ι) (trace : List t.Transition) (s : t.State) : Prop where
  below : ∀ i g, (s.phase i).generation? = some g → g < s.ledger.flights.nextGeneration
  idle : ∀ i, s.phase i = .idle ↔ i ∉ begins trace
  begunOnce : (begins trace).Nodup
  current : ∀ i g, (s.phase i).generation? = some g →
    s.ledger.flights.generation? (t.key i) = some g → Undisplaced trace i
  returned : ∀ i v, s.phase i = .ended (.ok v) ↔ ⟨i, v⟩ ∈ writes trace
  ordered : ∀ key, (written trace key).Sublist (begun trace key)

namespace Accounted

variable {trace : List t.Transition} {s s' : t.State} {event : Event ι}
  {w : Option (Σ i, t.Value i)}

theorem below_step (h : t.Accounted trace s) (effect : t.Effect s event w s') :
    ∀ i g, (s'.phase i).generation? = some g → g < s'.ledger.flights.nextGeneration := by
  intro j g hg
  cases effect with
  | @begin i idle =>
      change g < s.ledger.flights.nextGeneration + 1
      rcases eq_or_ne j i with rfl | hj
      · rw [State.put_phase_self] at hg
        cases hg
        exact Nat.lt_succ_self _
      · rw [State.put_phase_ne s hj] at hg
        exact Nat.lt_succ_of_lt (h.below j g hg)
  | @write i generation value store arrived current stored =>
      rcases eq_or_ne j i with rfl | hj
      · rw [State.put_phase_self] at hg
        cases hg
      · rw [State.put_phase_ne s hj] at hg
        exact h.below j g hg
  | @quiet i m flights phase silent busy fewer next same begun unpaid =>
      change g < flights.nextGeneration
      rw [next]
      rcases eq_or_ne j i with rfl | hj
      · rw [State.put_phase_self] at hg
        exact h.below j g (same g hg)
      · rw [State.put_phase_ne s hj] at hg
        exact h.below j g hg
  | cancelAll => exact h.below j g hg

theorem idle_step (h : t.Accounted trace s) {u : t.Transition}
    (effect : t.Effect s u.event w s') (i : ι) : s'.phase i = .idle ↔ i ∉ begins (trace ++ [u]) := by
  rw [begins_concat, List.mem_append, not_or, ← h.idle, Option.mem_toList, begun?_eq_some]
  generalize u.event = event at effect
  cases effect with
  | @begin j idle =>
      rcases eq_or_ne i j with rfl | hi
      · rw [State.put_phase_self]
        exact ⟨nofun, fun hidle => absurd rfl hidle.2⟩
      · rw [State.put_phase_ne s hi]
        constructor
        · intro hidle
          refine ⟨hidle, ?_⟩
          intro heq
          cases heq
          exact hi rfl
        · intro hidle
          exact hidle.1
  | @write j generation value store arrived current stored =>
      rcases eq_or_ne i j with rfl | hi
      · rw [State.put_phase_self, arrived]
        exact ⟨nofun, fun hidle => absurd hidle.1 nofun⟩
      · rw [State.put_phase_ne s hi]
        exact ⟨fun hidle => ⟨hidle, nofun⟩, fun hidle => hidle.1⟩
  | @quiet j m flights phase silent busy fewer next same begun unpaid =>
      rcases eq_or_ne i j with rfl | hi
      · rw [State.put_phase_self]
        constructor
        · intro hidle
          exact absurd hidle begun
        · intro hidle
          rw [hidle.1] at busy
          cases busy
      · rw [State.put_phase_ne s hi]
        constructor
        · intro hidle
          refine ⟨hidle, ?_⟩
          intro heq
          cases heq
          exact silent rfl
        · intro hidle
          exact hidle.1
  | cancelAll => exact ⟨fun hidle => ⟨hidle, nofun⟩, fun hidle => hidle.1⟩

theorem begunOnce_step (h : t.Accounted trace s) {u : t.Transition}
    (effect : t.Effect s u.event w s') : (begins (trace ++ [u])).Nodup := by
  rw [begins_concat]
  cases hu : u.event.begun? with
  | none =>
      rw [Option.toList_none, List.append_nil]
      exact h.begunOnce
  | some i =>
      have hevent := begun?_eq_some.1 hu
      rw [hevent] at effect
      have hidle : s.phase i = .idle := by
        cases effect with
        | begin idle => exact idle
        | quiet silent => exact absurd rfl silent
      rw [Option.toList_some, ← List.concat_eq_append]
      exact h.begunOnce.concat ((h.idle i).1 hidle)

/-- The generation that is current for a key is that of a fetch which has not been displaced. -/
theorem current_step (h : t.Accounted trace s) {u : t.Transition}
    (effect : t.Effect s u.event w s') : ∀ i g, (s'.phase i).generation? = some g →
      s'.ledger.flights.generation? (t.key i) = some g → Undisplaced (trace ++ [u]) i := by
  intro i g hg hcurrent
  generalize hu : u.event = event at effect
  cases effect with
  | @begin j idle =>
      rcases eq_or_ne i j with rfl | hi
      · exact .begin trace hu
      · rw [State.put_phase_ne s hi] at hg
        have hbegin := s.ledger.flights.generation?_begin (t.key j) (t.key i)
        by_cases hkey : t.key i = t.key j
        · rw [if_pos hkey] at hbegin
          have hlt := h.below i g hg
          rw [Option.some_inj.1 (hbegin.symm.trans hcurrent)] at hlt
          exact absurd hlt (Nat.lt_irrefl g)
        · rw [if_neg hkey] at hbegin
          refine (h.current i g hg (hbegin.symm.trans hcurrent)).concat ?_
          rw [hu, displaces_move]
          exact fun hd => hkey hd.2.symm
  | @write j generation value store arrived current stored =>
      rcases eq_or_ne i j with rfl | hi
      · rw [State.put_phase_self] at hg
        cases hg
      · rw [State.put_phase_ne s hi] at hg
        refine (h.current i g hg (s.ledger.flights.generation?_of_clear _ hcurrent)).concat ?_
        rw [hu, displaces_move]
        exact fun hd => absurd hd.1 nofun
  | @quiet j m flights phase silent busy fewer next same begun unpaid =>
      have hold : (s.phase i).generation? = some g := by
        rcases eq_or_ne i j with rfl | hi
        · rw [State.put_phase_self] at hg
          exact same g hg
        · rwa [State.put_phase_ne s hi] at hg
      refine (h.current i g hold (fewer _ _ hcurrent)).concat ?_
      rw [hu, displaces_move]
      exact fun hd => silent hd.1
  | cancelAll => cases hcurrent

theorem returned_step (h : t.Accounted trace s) {u : t.Transition}
    (effect : t.Effect s event u.write? s') (i : ι) (v : t.Value i) :
    s'.phase i = .ended (.ok v) ↔ ⟨i, v⟩ ∈ writes (trace ++ [u]) := by
  rw [writes_concat, List.mem_append, Option.mem_toList, ← h.returned]
  generalize u.write? = w at effect
  cases effect with
  | @begin j idle =>
      rcases eq_or_ne i j with rfl | hi
      · rw [State.put_phase_self, idle]
        exact ⟨nofun, fun h => h.elim nofun nofun⟩
      · rw [State.put_phase_ne s hi]
        exact ⟨Or.inl, fun h => h.elim id nofun⟩
  | @write j generation value store arrived current stored =>
      rcases eq_or_ne i j with rfl | hi
      · rw [State.put_phase_self, arrived]
        constructor
        · intro heq
          cases heq
          exact Or.inr rfl
        · rintro (heq | heq)
          · cases heq
          · cases heq
            rfl
      · rw [State.put_phase_ne s hi]
        constructor
        · exact Or.inl
        · rintro (h | heq)
          · exact h
          · cases heq
            exact absurd rfl hi
  | @quiet j m flights phase silent busy fewer next same begun unpaid =>
      rcases eq_or_ne i j with rfl | hi
      · rw [State.put_phase_self]
        constructor
        · intro heq
          exact absurd heq (unpaid v)
        · rintro (heq | heq)
          · rw [heq] at busy
            cases busy
          · cases heq
      · rw [State.put_phase_ne s hi]
        exact ⟨Or.inl, fun h => h.elim id nofun⟩
  | cancelAll => exact ⟨Or.inl, fun h => h.elim id nofun⟩

theorem ordered_step (h : t.Accounted trace s) {u : t.Transition}
    (effect : t.Effect s u.event u.write? s') (key : CacheKey) :
    (written (trace ++ [u]) key).Sublist (begun (trace ++ [u]) key) := by
  rw [begun_append, written, writes_concat, List.map_append, List.filter_append]
  generalize u.write? = w at effect
  have hquiet : (written trace key).Sublist (begun trace key ++ begun [u] key) :=
    (h.ordered key).trans (List.sublist_append_left _ _)
  generalize hu : u.event = event at effect
  cases effect with
  | begin idle => rwa [Option.toList_none, List.map_nil, List.filter_nil, List.append_nil]
  | @write i generation value store arrived current stored =>
      by_cases hkey : t.key i = key
      · subst hkey
        obtain ⟨earlier, hbegun⟩ : ∃ earlier, begun trace (t.key i) = earlier ++ [i] := by
          have hgeneration : s.ledger.flights.generation? (t.key i) = some generation :=
            eq_of_beq (Bool.and_eq_true_iff.1 current).1
          exact (h.current i generation (by rw [arrived]; rfl) hgeneration).begun_eq
        have hfresh : i ∉ written trace (t.key i) := by
          intro hi
          obtain ⟨⟨j, v⟩, hv, rfl⟩ := List.mem_map.1 (List.mem_filter.1 hi).1
          have hended := (h.returned j v).2 hv
          rw [arrived] at hended
          cases hended
        have hold := h.ordered (t.key i)
        rw [hbegun] at hold ⊢
        have hlast : (List.map Sigma.fst (some (Sigma.mk i value)).toList).filter
            (fun j => t.key j = t.key i) = [i] := by simp
        rw [hlast]
        exact ((sublist_of_fresh hold hfresh).append (List.Sublist.refl [i])).trans
          (List.sublist_append_left _ _)
      · have hnone : (List.map Sigma.fst (some (Sigma.mk i value)).toList).filter
            (fun j => t.key j = key) = [] := by simp [hkey]
        rwa [hnone, List.append_nil]
  | quiet => rwa [Option.toList_none, List.map_nil, List.filter_nil, List.append_nil]
  | cancelAll => rwa [Option.toList_none, List.map_nil, List.filter_nil, List.append_nil]

theorem concat (h : t.Accounted trace s) (hstep : t.step s event = some s') :
    t.Accounted (trace ++ [⟨s, event, s'⟩]) s' :=
  have effect := effect_of_step hstep
  { below := h.below_step effect
    idle := h.idle_step effect
    begunOnce := h.begunOnce_step effect
    current := h.current_step effect
    returned := h.returned_step effect
    ordered := h.ordered_step effect }

omit [DecidableEq ι] in
theorem start (store : CacheStore) : t.Accounted [] (t.start store) where
  below := nofun
  idle _ := ⟨nofun, fun _ => rfl⟩
  begunOnce := List.nodup_nil
  current := nofun
  returned _ _ := ⟨nofun, nofun⟩
  ordered _ := List.Sublist.refl []

/-- Under each key the fetches that wrote are some of those that began, and each began once. -/
theorem writtenOnce (h : t.Accounted trace s) : ((writes trace).map Sigma.fst).Nodup := by
  rw [List.nodup_iff_count_le_one]
  intro i
  have hnodup : (written trace (t.key i)).Nodup := (h.begunOnce.filter _).sublist (h.ordered _)
  have hcount : (written trace (t.key i)).count i = ((writes trace).map Sigma.fst).count i :=
    List.count_filter (by simp)
  rw [← hcount]
  exact List.nodup_iff_count_le_one.1 hnodup i

end Accounted

namespace Trace

variable {start s : t.State} {trace : List t.Transition}

theorem accounted {store : CacheStore} (h : t.Trace (t.start store) trace s) :
    t.Accounted trace s := by
  induction h with
  | nil => exact .start store
  | snoc _ next ih => exact ih.concat next

/-- A trace leads up to each of its transitions. -/
theorem split (h : t.Trace start trace s) : ∀ {earlier u later}, trace = earlier ++ u :: later →
    t.Trace start earlier u.before ∧ t.step u.before u.event = some u.after := by
  induction h with
  | nil =>
      intro earlier u later heq
      cases (List.append_eq_nil_iff.1 heq.symm).2
  | @snoc trace s event s' htrace next ih =>
      intro earlier u later heq
      rcases List.eq_nil_or_concat later with rfl | ⟨later, v, rfl⟩
      · obtain ⟨rfl, hu⟩ := List.append_inj' heq rfl
        cases hu
        exact ⟨htrace, next⟩
      · rw [List.concat_eq_append, ← List.cons_append, ← List.append_assoc] at heq
        exact ih (List.append_inj' heq rfl).1

theorem effect (h : t.Trace start trace s) {u : t.Transition} (hu : u ∈ trace) :
    t.Effect u.before u.event u.write? u.after := by
  obtain ⟨earlier, later, heq⟩ := List.append_of_mem hu
  exact effect_of_step (h.split heq).2

theorem undisplaced_of_write {store : CacheStore} (h : t.Trace (t.start store) trace s)
    {earlier later : List t.Transition} {u : t.Transition} {i : ι} {v : t.Value i}
    (htrace : trace = earlier ++ u :: later) (hwrite : u.write? = some ⟨i, v⟩) :
    Undisplaced earlier i := by
  obtain ⟨hearlier, hstep⟩ := h.split htrace
  have heffect : t.Effect u.before u.event u.write? u.after := effect_of_step hstep
  rw [hwrite] at heffect
  obtain ⟨generation, harrived, hcurrent⟩ := heffect.write_current
  exact hearlier.accounted.current i generation (by rw [harrived]; rfl) hcurrent

/-- Each fetch begins once. -/
theorem not_begun_earlier {store : CacheStore} (h : t.Trace (t.start store) trace s)
    {earlier later : List t.Transition} {u : t.Transition} {i : ι}
    (htrace : trace = earlier ++ u :: later) (hbegin : u.event = .move i .begin) :
    i ∉ begins earlier := by
  have hnodup := h.accounted.begunOnce
  rw [htrace, List.append_cons, begins, List.filterMap_append, ← begins, begins_concat,
    begun?_eq_some.2 hbegin, Option.toList_some, ← List.concat_eq_append] at hnodup
  exact ((List.nodup_concat _ _).1 (List.nodup_append.1 hnodup).1).1

/-- A fetch that is displaced when it has not committed yet returns no value. -/
theorem not_returned_of_displaced {store : CacheStore} (h : t.Trace (t.start store) trace s)
    {earlier later : List t.Transition} {u : t.Transition} {i : ι}
    (htrace : trace = earlier ++ u :: later) (hbegun : i ∈ begins earlier)
    (huncommitted : ∀ w ∈ earlier, w.event ≠ .move i .commit)
    (hdisplaces : t.Displaces u.event (t.key i)) (v : t.Value i) : s.phase i ≠ .ended (.ok v) := by
  intro hended
  obtain ⟨w, hw, hwrite⟩ := List.mem_filterMap.1 ((h.accounted.returned i v).1 hended)
  have hcommit : w.event = .move i .commit := by
    have heffect := h.effect hw
    rw [hwrite] at heffect
    exact heffect.write_event
  obtain ⟨before, after, hplace⟩ := List.append_of_mem hw
  rcases places_cases (htrace.symm.trans hplace) with ⟨-, rfl⟩ | ⟨m, rfl, -⟩ | ⟨m, rfl, -⟩
  · rw [hcommit, displaces_move] at hdisplaces
    cases hdisplaces.1
  · exact huncommitted w (by simp) hcommit
  · -- the write comes after the displacement, so the fetch would have to begin a second time
    obtain ⟨p, x, q, hsplit, hbegin, hq⟩ := h.undisplaced_of_write hplace hwrite
    have hfresh := (h.split hplace).1.not_begun_earlier hsplit hbegin
    rcases places_cases hsplit with ⟨rfl, -⟩ | ⟨m', -, rfl⟩ | ⟨m', rfl, -⟩
    · exact hfresh hbegun
    · exact hq u (by simp) hdisplaces
    · rw [begins, List.filterMap_append, List.mem_append, not_or] at hfresh
      exact hfresh.1 hbegun

/-- Whatever the order of the steps is, and whatever is replied: the cache changes only by the
writes of fetches. A fetch writes once at most, and only if it has not been displaced. It returns a
value exactly if it wrote that value, and no step of a fetch that returns a fault changes the cache.
The writes under a key are in the order in which their fetches began, and a fetch that is displaced
before it commits returns no value. -/
theorem orderly {store : CacheStore} (h : t.Trace (t.start store) trace s) :
    (∀ u ∈ trace, u.write? = none → u.after.ledger.store = u.before.ledger.store) ∧
    (∀ u ∈ trace, ∀ i v, u.write? = some ⟨i, v⟩ → u.event = .move i .commit ∧
      u.before.ledger.store.store (t.key i) t.client.schema.name ((t.fetch i).encode v) =
        .ok u.after.ledger.store) ∧
    ((writes trace).map Sigma.fst).Nodup ∧
    (∀ earlier u later i v, trace = earlier ++ u :: later → u.write? = some ⟨i, v⟩ →
      Undisplaced earlier i) ∧
    (∀ i v, s.phase i = .ended (.ok v) ↔ ⟨i, v⟩ ∈ writes trace) ∧
    (∀ i fault, s.phase i = .ended (.error fault) → ∀ u ∈ trace, ∀ m, u.event = .move i m →
      u.after.ledger.store = u.before.ledger.store) ∧
    (begins trace).Nodup ∧ (∀ key, (written trace key).Sublist (begun trace key)) ∧
    ∀ earlier u later i, trace = earlier ++ u :: later → i ∈ begins earlier →
      (∀ w ∈ earlier, w.event ≠ .move i .commit) → t.Displaces u.event (t.key i) →
      ∀ v, s.phase i ≠ .ended (.ok v) := by
  have haccounted := h.accounted
  refine ⟨?_, ?_, haccounted.writtenOnce, ?_, haccounted.returned, ?_, haccounted.begunOnce,
    haccounted.ordered, ?_⟩
  · intro u hu hnone
    have heffect := h.effect hu
    rw [hnone] at heffect
    exact heffect.store_eq
  · intro u hu i v hwrite
    have heffect := h.effect hu
    rw [hwrite] at heffect
    exact ⟨heffect.write_event, heffect.stored⟩
  · intro earlier u later i v hplace hwrite
    exact h.undisplaced_of_write hplace hwrite
  · intro i fault hended u hu m hm
    have heffect := h.effect hu
    cases hwrite : u.write? with
    | none =>
        rw [hwrite] at heffect
        exact heffect.store_eq
    | some w =>
        obtain ⟨j, v⟩ := w
        rw [hwrite] at heffect
        have hcommit := heffect.write_event
        rw [hm] at hcommit
        cases hcommit
        have hreturned := (haccounted.returned i v).2 (List.mem_filterMap.2 ⟨u, hu, hwrite⟩)
        rw [hended] at hreturned
        cases hreturned
  · intro earlier u later i hplace hbegun huncommitted hdisplaces
    exact h.not_returned_of_displaced hplace hbegun huncommitted hdisplaces

/-- Two fetches of a balance. -/
def overlapping : Traffic Bool where
  client := ⟨.blockcypher .mainnet, none⟩
  Value _ := UInt64
  fetch _ := .balance (.blockcypher .mainnet) (.ofKeyHash (List.replicate 20 0) .mainnet (by simp))

/-- The second fetch begins before the first has its reply. -/
def overlap : List (Event Bool) :=
  [.move false .begin, .move true .begin,
    .move true (.reply (.reply 200 "\x7b\"balance\": 5\x7d")),
    .move false (.reply (.reply 200 "\x7b\"balance\": 4\x7d")), .move true .commit]

theorem orderly_overlapping : ∃ trace s, overlapping.Trace (overlapping.start .empty) trace s ∧
    writes trace = [⟨true, (5 : UInt64)⟩] ∧ s.phase true = .ended (.ok (5 : UInt64)) ∧
    ∀ v, s.phase false ≠ .ended (.ok v) := by
  have hwritten : (overlapping.follow ([], overlapping.start .empty) overlap).map
      (fun traced => (writes traced.1).map fun w => (w.1, (w.2 : UInt64))) =
        some [(true, 5)] := by decide +kernel
  obtain ⟨⟨trace, s⟩, hfollow, hmap⟩ := Option.map_eq_some_iff.1 hwritten
  have hwrites : writes trace = [⟨true, (5 : UInt64)⟩] := by
    obtain ⟨⟨i, v⟩, hw, heq⟩ := List.map_eq_singleton_iff.1 hmap
    cases heq
    exact hw
  have h : overlapping.Trace (overlapping.start .empty) trace s := Trace.nil.follow hfollow
  obtain ⟨-, -, -, -, hreturned, -⟩ := orderly h
  refine ⟨trace, s, h, hwrites, (hreturned true (5 : UInt64)).2 ?_, ?_⟩
  · rw [hwrites]
    exact List.mem_singleton_self _
  · intro v hended
    have hmem := (hreturned false v).1 hended
    rw [hwrites, List.mem_singleton] at hmem
    cases hmem

/-! ## Fetches with nothing in between -/

variable {i : ι} {phase : Fetch.Phase (t.Value i)} {m : Fetch.Move} {ledger : LedgerState}

theorem move (h : t.Trace start trace s)
    (hmove : t.client.move? (t.fetch i) (s.phase i) m s.ledger = some (phase, ledger)) :
    ∃ u, t.Trace start (trace ++ [u]) (s.put i phase ledger) :=
  ⟨_, h.snoc (by rw [step, hmove]; rfl)⟩

theorem settle (h : t.Trace start trace s) {generation : Nat} {value : t.Value i}
    (hphase : s.phase i = .arrived generation value) :
    ∃ later s', t.Trace start (trace ++ later) s' ∧
      s'.phase i = .ended (t.client.settle (t.fetch i) generation value s.ledger).1 ∧
      s'.ledger = (t.client.settle (t.fetch i) generation value s.ledger).2 := by
  rcases t.client.settle_cases (t.fetch i) generation value s.ledger with
    ⟨result, s', hcommitted, hsettle⟩ | ⟨fault, s', hcommitted, hsettle⟩
  · obtain ⟨u, hcommit⟩ := h.move (i := i) (m := .commit)
      (by rw [hphase, ← hcommitted]; rfl)
    rw [hsettle]
    exact ⟨[u], _, hcommit, s.put_phase_self _ _ _, rfl⟩
  · obtain ⟨u, hcommit⟩ := h.move (i := i) (m := .commit)
      (by rw [hphase, ← hcommitted]; rfl)
    obtain ⟨v, habandon⟩ := hcommit.move (i := i) (m := .abandon)
      (by rw [s.put_phase_self]; rfl)
    rw [List.append_assoc] at habandon
    rw [hsettle]
    exact ⟨[u] ++ [v], _, habandon, State.put_phase_self _ _ _ _, rfl⟩

/-- The end of a fetch as it runs is made of its steps. -/
theorem finish (h : t.Trace start trace s) {generation : Nat}
    (hphase : s.phase i = .waiting generation) (outcome : Outcome) :
    ∃ later s', t.Trace start (trace ++ later) s' ∧
      s'.phase i = .ended (t.client.finish (t.fetch i) generation outcome s.ledger).1 ∧
      s'.ledger = (t.client.finish (t.fetch i) generation outcome s.ledger).2 := by
  obtain ⟨u, hreply⟩ := h.move (i := i) (m := .reply outcome) (by rw [hphase]; rfl)
  unfold LedgerClient.finish
  unfold LedgerClient.received at hreply
  by_cases hcancelled : s.ledger.flights.isCancelled generation
  · rw [if_pos hcancelled] at hreply ⊢
    exact ⟨[u], _, hreply, s.put_phase_self _ _ _, rfl⟩
  · rw [if_neg hcancelled] at hreply ⊢
    cases hread : (t.fetch i).read outcome with
    | ok value =>
        rw [hread] at hreply
        obtain ⟨later, s', hsettle, hended, hledger⟩ := hreply.settle (s.put_phase_self _ _ _)
        rw [List.append_assoc] at hsettle
        exact ⟨_, s', hsettle, hended, hledger⟩
    | error fault =>
        rw [hread] at hreply
        obtain ⟨v, habandon⟩ := hreply.move (i := i) (m := .abandon)
          (by rw [s.put_phase_self]; rfl)
        rw [List.append_assoc] at habandon
        exact ⟨_, _, habandon, State.put_phase_self _ _ _ _, rfl⟩

/-- A fetch as it runs is a trace of its steps, whatever is replied. -/
theorem fetch (h : t.Trace start trace s) (hphase : s.phase i = .idle) :
    ∃ next : Outcome → Except LedgerError (t.Value i) × LedgerState,
      t.client.fetch (t.fetch i) s.ledger =
        .ask (t.client.requestFor (t.fetch i)) (fun outcome => .done (next outcome)) ∧
      ∀ outcome, ∃ later s', t.Trace start (trace ++ later) s' ∧
        s'.phase i = .ended (next outcome).1 ∧ s'.ledger = (next outcome).2 := by
  refine ⟨_, rfl, ?_⟩
  intro outcome
  obtain ⟨u, hbegin⟩ := h.move (i := i) (m := .begin) (by rw [hphase]; rfl)
  obtain ⟨later, s', hfinish, hended, hledger⟩ := hbegin.finish (s.put_phase_self _ _ _) outcome
  rw [List.append_assoc] at hfinish
  exact ⟨_, s', hfinish, hended, hledger⟩

end Trace

end Traffic

end CashWallet
