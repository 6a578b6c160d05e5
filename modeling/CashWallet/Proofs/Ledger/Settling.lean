import CashWallet.Proofs.Ledger.Table
import CashWallet.Proofs.Ledger.Traffic

/-!
# How fetches settle

Each entry of the table is that of one fetch that is still under way, and a fetch that has yet to
commit keeps its entry until it is displaced. So only what displaces a fetch can cancel it: neither
the ends of older fetches of its key nor anything that fetches of other keys do.
-/

namespace CashWallet

namespace Fetch

/-- A fetch that has no fault and has not committed. -/
def Phase.Pending {α : Type} (generation : Nat) (phase : Phase α) : Prop :=
  phase = .waiting generation ∨ ∃ value, phase = .arrived generation value

theorem Phase.Pending.generation? {α : Type} {g : Nat} {phase : Phase α} (h : phase.Pending g) :
    phase.generation? = some g := by
  rcases h with rfl | ⟨value, rfl⟩ <;> rfl

end Fetch

namespace Traffic

variable {ι : Type} {t : Traffic ι}

/-- A fetch took a generation when it began. -/
def Took (trace : List t.Transition) (i : ι) (generation : Nat) : Prop :=
  ∃ u ∈ trace, u.event = .move i .begin ∧ u.before.ledger.flights.nextGeneration = generation

/-- Since a fetch began, another fetch of its key has begun or all have been cancelled. -/
def Displaced (trace : List t.Transition) (i : ι) : Prop :=
  ∃ earlier u later, trace = earlier ++ u :: later ∧ u.event = .move i .begin ∧
    ∃ v ∈ later, v.event = .cancelAll ∨ ∃ j, j ≠ i ∧ v.event = .move j .begin ∧ t.key j = t.key i

section Traces

variable {trace : List t.Transition} {u : t.Transition} {i : ι} {g : Nat}

theorem took_concat : Took (trace ++ [u]) i g ↔ Took trace i g ∨
    u.event = .move i .begin ∧ u.before.ledger.flights.nextGeneration = g := by
  simp [Took, or_and_right, exists_or]

theorem Displaced.concat (h : Displaced trace i) (u : t.Transition) :
    Displaced (trace ++ [u]) i := by
  obtain ⟨earlier, b, later, rfl, hbegin, v, hv, hdisplaces⟩ := h
  exact ⟨earlier, b, later ++ [u], by simp, hbegin, v, List.mem_append_left _ hv, hdisplaces⟩

/-- What has begun is displaced by what comes next. -/
theorem Took.displaced (h : Took trace i g)
    (hu : u.event = .cancelAll ∨ ∃ j, j ≠ i ∧ u.event = .move j .begin ∧ t.key j = t.key i) :
    Displaced (trace ++ [u]) i := by
  obtain ⟨b, hb, hbegin, -⟩ := h
  obtain ⟨earlier, later, rfl⟩ := List.append_of_mem hb
  exact ⟨earlier, b, later ++ [u], by simp, hbegin, u, by simp, hu⟩

theorem Undisplaced.of_concat (h : Undisplaced (trace ++ [u]) i) (hu : u.event ≠ .move i .begin) :
    Undisplaced trace i ∧ ¬ t.Displaces u.event (t.key i) := by
  obtain ⟨earlier, b, later, heq, hbegin, hlater⟩ := h
  rcases List.eq_nil_or_concat later with rfl | ⟨later, v, rfl⟩
  · cases (List.append_inj' heq rfl).2
    exact absurd hbegin hu
  · rw [List.concat_eq_append] at hlater
    rw [List.concat_eq_append, ← List.cons_append, ← List.append_assoc] at heq
    obtain ⟨rfl, hlast⟩ := List.append_inj' heq rfl
    cases hlast
    exact ⟨⟨earlier, b, later, rfl, hbegin, fun w hw => hlater w (List.mem_append_left _ hw)⟩,
      hlater u (by simp)⟩

end Traces

/-! ## What a step does -/

variable [DecidableEq ι]

/-- What a step does to a fetch and to the table: a fetch begins, goes on with the table as it is,
or lets go of its entry, if there still is one. -/
inductive Advance (t : Traffic ι) (s : t.State) : Event ι → t.State → Prop
  | begin {i} (idle : s.phase i = .idle) :
      Advance t s (.move i .begin)
        (s.put i (.waiting s.ledger.flights.nextGeneration) (s.ledger.begin (t.key i)).2)
  | goOn {i m g phase} (silent : m ≠ .begin) (waiting : s.phase i = .waiting g)
      (busy : phase.generation? = some g) (sound : ∀ g, phase ≠ .failing g .cancelled) :
      Advance t s (.move i m) (s.put i phase s.ledger)
  | letGo {i m g phase ledger} (silent : m ≠ .begin) (busy : (s.phase i).generation? = some g)
      (flights : ledger.flights = s.ledger.flights.abandon (t.key i) g)
      (same : ∀ g', phase.generation? = some g' → g' = g) (ended : ∀ g, ¬ phase.Pending g)
      (sound : ∀ g, phase ≠ .failing g .cancelled)
      (cancelled : phase = .ended (.error .cancelled) →
        (s.phase i).Pending g ∧ s.ledger.flights.generation? (t.key i) ≠ some g) :
      Advance t s (.move i m) (s.put i phase ledger)
  | cancelAll : Advance t s .cancelAll { s with ledger := s.ledger.cancelAll }

namespace Advance

variable {s : t.State} {i : ι} {g : Nat}

/-- A fetch that has been displaced finds out and ends. -/
theorem end_cancelled {m : Fetch.Move} (silent : m ≠ .begin) (hphase : (s.phase i).Pending g)
    (hdisplaced : s.ledger.flights.generation? (t.key i) ≠ some g) :
    t.Advance s (.move i m) (s.put i (.ended (.error .cancelled)) s.ledger) :=
  .letGo silent hphase.generation? (Flights.abandon_of_ne hdisplaced).symm nofun
    (fun _ h => h.elim nofun nofun) nofun fun _ => ⟨hphase, hdisplaced⟩

theorem reply (hw : s.ledger.flights.WellFormed) (hphase : s.phase i = .waiting g)
    (outcome : Outcome) :
    t.Advance s (.move i (.reply outcome))
      (s.put i (LedgerClient.received (t.fetch i) g outcome s.ledger) s.ledger) := by
  cases hcancelled : s.ledger.flights.isCancelled g with
  | true =>
      rw [LedgerClient.received_of_cancelled hcancelled]
      refine .end_cancelled nofun (Or.inl hphase) ?_
      intro h
      rw [hw.live h] at hcancelled
      cases hcancelled
  | false =>
      cases hread : (t.fetch i).read outcome with
      | ok value =>
          rw [LedgerClient.received_of_ok hcancelled hread]
          exact .goOn nofun hphase rfl nofun
      | error fault =>
          rw [LedgerClient.received_of_error hcancelled hread]
          refine .goOn nofun hphase rfl ?_
          intro g' heq
          cases heq
          exact (t.fetch i).read_ne_cancelled outcome hread

theorem commit (hw : s.ledger.flights.WellFormed) {value : t.Value i}
    (hphase : s.phase i = .arrived g value) :
    t.Advance s (.move i .commit)
      (s.put i (t.client.committed (t.fetch i) g value s.ledger).1
        (t.client.committed (t.fetch i) g value s.ledger).2) := by
  have hbusy : (s.phase i).generation? = some g := by rw [hphase]; rfl
  cases hcurrent : s.ledger.flights.isCurrent (t.key i) g with
  | true =>
      have hgone : s.ledger.flights.clear (t.key i) =
          s.ledger.flights.abandon (t.key i) g :=
        (Flights.abandon_of_eq (hw.isCurrent_iff.1 hcurrent)).symm
      cases hstore : s.ledger.store.store (t.key i) t.client.schema.name
          ((t.fetch i).encode value) with
      | ok store =>
          rw [t.client.committed_of_stored hcurrent hstore]
          exact .letGo nofun hbusy hgone nofun (fun _ h => h.elim nofun nofun) nofun nofun
      | error fault =>
          rw [t.client.committed_of_unstored hcurrent hstore]
          exact .letGo nofun hbusy hgone (fun _ h => (Option.some_inj.1 h).symm)
            (fun _ h => h.elim nofun nofun) nofun nofun
  | false =>
      rw [t.client.committed_of_stale hcurrent]
      refine .end_cancelled nofun (Or.inr ⟨value, hphase⟩) ?_
      intro h
      rw [hw.isCurrent_iff.2 h] at hcurrent
      cases hcurrent

theorem abandon {fault : LedgerError} (hfault : fault ≠ .cancelled)
    (hphase : s.phase i = .failing g fault) :
    t.Advance s (.move i .abandon)
      (s.put i (.ended (.error fault)) (s.ledger.abandon (t.key i) g)) := by
  refine .letGo nofun (by rw [hphase]; rfl) rfl nofun (fun _ h => h.elim nofun nofun) nofun ?_
  intro heq
  cases heq
  exact absurd rfl hfault

end Advance

theorem advance_of_step {s s' : t.State} {event : Event ι} (hw : s.ledger.flights.WellFormed)
    (hsound : ∀ i g, s.phase i ≠ .failing g .cancelled) (h : t.step s event = some s') :
    t.Advance s event s' := by
  cases turn_of_step h with
  | begin idle => exact .begin idle
  | reply waiting => exact .reply hw waiting _
  | commit arrived => exact .commit hw arrived
  | @abandon i generation fault failing =>
      refine .abandon ?_ failing
      rintro rfl
      exact hsound i generation failing
  | cancelAll => exact .cancelAll

namespace Advance

variable {s s' : t.State} {event : Event ι} {i : ι} {g : Nat}

theorem wellFormed (hw : s.ledger.flights.WellFormed) (h : t.Advance s event s') :
    s'.ledger.flights.WellFormed := by
  cases h with
  | begin => exact hw.begin _
  | goOn => exact hw
  | @letGo j m g phase ledger silent busy flights =>
      change ledger.flights.WellFormed
      rw [flights]
      exact hw.abandon _ _
  | cancelAll => exact hw.cancelAll

theorem nextGeneration_of_begin (h : t.Advance s (.move i .begin) s') :
    s'.ledger.flights.nextGeneration = s.ledger.flights.nextGeneration + 1 := by
  cases h with
  | begin => rfl
  | goOn silent => exact absurd rfl silent
  | letGo silent => exact absurd rfl silent

theorem nextGeneration_le (h : t.Advance s event s') :
    s.ledger.flights.nextGeneration ≤ s'.ledger.flights.nextGeneration := by
  cases h with
  | begin => exact Nat.le_succ _
  | goOn => exact Nat.le_refl _
  | @letGo j m g phase ledger silent busy flights =>
      change _ ≤ ledger.flights.nextGeneration
      rw [flights]
      exact Nat.le_of_eq (Flights.nextGeneration_abandon ..).symm
  | cancelAll => exact Nat.le_refl _

/-- A generation that a fetch has is the one that it began with. -/
theorem generation?_before (h : t.Advance s event s') (hg : (s'.phase i).generation? = some g) :
    (s.phase i).generation? = some g ∨
      event = .move i .begin ∧ s.ledger.flights.nextGeneration = g := by
  cases h with
  | @begin j idle =>
      rcases eq_or_ne i j with rfl | hi
      · rw [State.put_phase_self] at hg
        exact Or.inr ⟨rfl, Option.some_inj.1 hg⟩
      · rw [State.put_phase_ne s hi] at hg
        exact Or.inl hg
  | @goOn j m g' phase silent waiting busy sound =>
      rcases eq_or_ne i j with rfl | hi
      · rw [State.put_phase_self, busy] at hg
        rw [waiting]
        exact Or.inl hg
      · rw [State.put_phase_ne s hi] at hg
        exact Or.inl hg
  | @letGo j m g' phase ledger silent busy flights same ended sound cancelled =>
      rcases eq_or_ne i j with rfl | hi
      · rw [State.put_phase_self] at hg
        rw [same g hg]
        exact Or.inl busy
      · rw [State.put_phase_ne s hi] at hg
        exact Or.inl hg
  | cancelAll => exact Or.inl hg

end Advance

/-! ## What holds along a trace -/

/-- What a trace and the table after it have to do with one another. -/
structure Tracked (t : Traffic ι) (trace : List t.Transition) (s : t.State) : Prop where
  table : s.ledger.flights.WellFormed
  took : ∀ i g, (s.phase i).generation? = some g → Took trace i g
  below : ∀ i g, Took trace i g → g < s.ledger.flights.nextGeneration
  unshared : ∀ i j g, Took trace i g → Took trace j g → i = j
  owned : ∀ key g, s.ledger.flights.generation? key = some g →
    ∃ i, t.key i = key ∧ (s.phase i).generation? = some g
  kept : ∀ i g, (s.phase i).Pending g →
    s.ledger.flights.generation? (t.key i) = some g ∨ Displaced trace i
  sound : ∀ i g, s.phase i ≠ .failing g .cancelled
  cancelled : ∀ i, s.phase i = .ended (.error .cancelled) → Displaced trace i

namespace Tracked

variable {trace : List t.Transition} {s s' : t.State} {event : Event ι}

theorem took_step (h : t.Tracked trace s) (advance : t.Advance s event s') :
    ∀ i g, (s'.phase i).generation? = some g → Took (trace ++ [⟨s, event, s'⟩]) i g := by
  intro i g hg
  rw [took_concat]
  exact (advance.generation?_before hg).imp_left (h.took i g)

theorem below_step (h : t.Tracked trace s) (advance : t.Advance s event s') :
    ∀ i g, Took (trace ++ [⟨s, event, s'⟩]) i g → g < s'.ledger.flights.nextGeneration := by
  intro i g hg
  rcases took_concat.1 hg with hold | ⟨hevent, rfl⟩
  · exact Nat.lt_of_lt_of_le (h.below i g hold) advance.nextGeneration_le
  · change event = .move i .begin at hevent
    rw [hevent] at advance
    rw [advance.nextGeneration_of_begin]
    exact Nat.lt_succ_self _

omit [DecidableEq ι] in
theorem unshared_step (h : t.Tracked trace s) (event : Event ι) (s' : t.State) :
    ∀ i j g, Took (trace ++ [⟨s, event, s'⟩]) i g → Took (trace ++ [⟨s, event, s'⟩]) j g →
      i = j := by
  intro i j g hi hj
  rcases took_concat.1 hi with hi | ⟨hi, hnew⟩ <;> rcases took_concat.1 hj with hj | ⟨hj, hnew'⟩
  · exact h.unshared i j g hi hj
  · exact absurd (h.below i g hi) (by rw [← hnew']; exact Nat.lt_irrefl _)
  · exact absurd (h.below j g hj) (by rw [← hnew]; exact Nat.lt_irrefl _)
  · cases hi.symm.trans hj
    rfl

/-- A fetch keeps its generation for as long as its key has it in the table. -/
theorem owned_step (h : t.Tracked trace s) (advance : t.Advance s event s') :
    ∀ key g, s'.ledger.flights.generation? key = some g →
      ∃ i, t.key i = key ∧ (s'.phase i).generation? = some g := by
  intro key g hg
  cases advance with
  | @begin j idle =>
      change (s.ledger.flights.begin (t.key j)).2.generation? key = some g at hg
      rw [Flights.generation?_begin] at hg
      split at hg
      · next hkey =>
          refine ⟨j, hkey.symm, ?_⟩
          rw [State.put_phase_self]
          exact hg
      · obtain ⟨i, hkey, hi⟩ := h.owned key g hg
        have hne : i ≠ j := by
          rintro rfl
          rw [idle] at hi
          cases hi
        exact ⟨i, hkey, by rwa [State.put_phase_ne s hne]⟩
  | @goOn j m g' phase silent waiting busy sound =>
      obtain ⟨i, hkey, hi⟩ := h.owned key g hg
      rcases eq_or_ne i j with rfl | hne
      · refine ⟨i, hkey, ?_⟩
        rw [State.put_phase_self, busy]
        rwa [waiting] at hi
      · exact ⟨i, hkey, by rwa [State.put_phase_ne s hne]⟩
  | @letGo j m g' phase ledger silent busy flights same ended sound cancelled =>
      change ledger.flights.generation? key = some g at hg
      rw [flights, Flights.generation?_abandon] at hg
      split at hg
      · cases hg
      · next hkept =>
          obtain ⟨i, rfl, hi⟩ := h.owned key g hg
          have hne : i ≠ j := by
            rintro rfl
            rw [busy] at hi
            rw [← hi] at hg
            exact hkept ⟨rfl, hg⟩
          exact ⟨i, rfl, by rwa [State.put_phase_ne s hne]⟩
  | cancelAll => cases hg

/-- Only a fetch that displaces another takes the entry of the other out of the table. -/
theorem kept_step (h : t.Tracked trace s) (advance : t.Advance s event s') :
    ∀ i g, (s'.phase i).Pending g → s'.ledger.flights.generation? (t.key i) = some g ∨
      Displaced (trace ++ [⟨s, event, s'⟩]) i := by
  intro i g hi
  cases advance with
  | @begin j idle =>
      change (s.ledger.flights.begin (t.key j)).2.generation? (t.key i) = some g ∨ _
      rw [Flights.generation?_begin]
      rcases eq_or_ne i j with rfl | hne
      · rw [State.put_phase_self] at hi
        rw [if_pos rfl]
        exact Or.inl hi.generation?
      · rw [State.put_phase_ne s hne] at hi
        by_cases hkey : t.key i = t.key j
        · exact Or.inr ((h.took i g hi.generation?).displaced
            (Or.inr ⟨j, hne.symm, rfl, hkey.symm⟩))
        · rw [if_neg hkey]
          exact (h.kept i g hi).imp_right fun hd => hd.concat _
  | @goOn j m g' phase silent waiting busy sound =>
      have hbefore : (s.phase i).Pending g := by
        rcases eq_or_ne i j with rfl | hne
        · rw [State.put_phase_self] at hi
          rw [hi.generation?] at busy
          cases busy
          exact Or.inl waiting
        · rwa [State.put_phase_ne s hne] at hi
      exact (h.kept i g hbefore).imp_right fun hd => hd.concat _
  | @letGo j m g' phase ledger silent busy flights same ended sound cancelled =>
      have hne : i ≠ j := by
        rintro rfl
        rw [State.put_phase_self] at hi
        exact ended g hi
      rw [State.put_phase_ne s hne] at hi
      refine (h.kept i g hi).imp ?_ fun hd => hd.concat _
      intro hcurrent
      change ledger.flights.generation? (t.key i) = some g
      rw [flights, Flights.generation?_abandon, if_neg, hcurrent]
      -- the entry of the key would be that of two fetches
      rintro ⟨hkey, hg'⟩
      rw [← hkey, hcurrent] at hg'
      cases hg'
      exact hne (h.unshared i j g (h.took i g hi.generation?) (h.took j g busy))
  | cancelAll => exact Or.inr ((h.took i g hi.generation?).displaced (Or.inl rfl))

theorem sound_step (h : t.Tracked trace s) (advance : t.Advance s event s') :
    ∀ i g, s'.phase i ≠ .failing g .cancelled := by
  have hput : ∀ {j} {phase : Fetch.Phase (t.Value j)} {ledger : LedgerState},
      (∀ g, phase ≠ .failing g .cancelled) →
        ∀ i g, (s.put j phase ledger).phase i ≠ .failing g .cancelled := fun hphase =>
    State.put_forall (P := fun _ p => ∀ g, p ≠ .failing g .cancelled) h.sound hphase _
  cases advance with
  | begin => exact hput fun _ => nofun
  | goOn _ _ _ sound => exact hput sound
  | letGo _ _ _ _ _ sound => exact hput sound
  | cancelAll => exact h.sound

theorem cancelled_step (h : t.Tracked trace s) (advance : t.Advance s event s') :
    ∀ i, s'.phase i = .ended (.error .cancelled) → Displaced (trace ++ [⟨s, event, s'⟩]) i := by
  have hput : ∀ {j} {phase : Fetch.Phase (t.Value j)} {ledger : LedgerState},
      (phase = .ended (.error .cancelled) → Displaced trace j) →
        ∀ i, (s.put j phase ledger).phase i = .ended (.error .cancelled) → Displaced trace i :=
    fun hphase => State.put_forall
      (P := fun i p => p = .ended (.error .cancelled) → Displaced trace i) h.cancelled hphase _
  intro i hi
  apply Displaced.concat
  cases advance with
  | begin =>
      refine hput ?_ i hi
      exact nofun
  | goOn _ _ busy =>
      refine hput ?_ i hi
      rintro rfl
      cases busy
  | @letGo j m g phase ledger silent busy flights same ended sound cancelled =>
      refine hput ?_ i hi
      intro heq
      obtain ⟨hpending, hgone⟩ := cancelled heq
      exact (h.kept j g hpending).resolve_left hgone
  | cancelAll => exact h.cancelled i hi

theorem advance (h : t.Tracked trace s) (hstep : t.step s event = some s') :
    t.Advance s event s' :=
  advance_of_step h.table h.sound hstep

theorem concat (h : t.Tracked trace s) (hstep : t.step s event = some s') :
    t.Tracked (trace ++ [⟨s, event, s'⟩]) s' :=
  have advance := h.advance hstep
  { table := advance.wellFormed h.table
    took := h.took_step advance
    below := h.below_step advance
    unshared := h.unshared_step event s'
    owned := h.owned_step advance
    kept := h.kept_step advance
    sound := h.sound_step advance
    cancelled := h.cancelled_step advance }

omit [DecidableEq ι] in
theorem start (store : CacheStore) : t.Tracked [] (t.start store) where
  table := .none
  took := nofun
  below := nofun
  unshared := nofun
  owned := nofun
  kept _ _ h := h.elim nofun nofun
  sound := nofun
  cancelled := nofun

end Tracked

namespace Trace

variable {trace : List t.Transition} {s : t.State} {store : CacheStore} {i : ι} {g : Nat}

theorem tracked (h : t.Trace (t.start store) trace s) : t.Tracked trace s := by
  induction h with
  | nil => exact .start store
  | snoc _ next ih => exact ih.concat next

theorem not_displaced (h : t.Trace (t.start store) trace s) (hi : Undisplaced trace i) :
    ¬ Displaced trace i := by
  rintro ⟨earlier', b', later', heq', hbegin', v, hv, hdisplaces⟩
  obtain ⟨earlier, b, later, heq, hbegin, hlater⟩ := hi
  have hbegun : ∀ {l r : List t.Transition} {w}, w.event = .move i .begin →
      i ∈ begins (l ++ w :: r) :=
    fun hw => List.mem_filterMap.2 ⟨_, by simp, begun?_eq_some.2 hw⟩
  rcases places_cases (heq.symm.trans heq') with ⟨rfl, -⟩ | ⟨m, rfl, -⟩ | ⟨m, rfl, -⟩
  · rw [heq] at heq'
    cases List.append_cancel_left heq'
    refine hlater v hv ?_
    rcases hdisplaces with hcancel | ⟨j, -, hj⟩
    · exact Or.inl hcancel
    · exact Or.inr ⟨j, hj⟩
  · exact h.not_begun_earlier heq hbegin (hbegun hbegin')
  · exact h.not_begun_earlier heq' hbegin' (hbegun hbegin)

/-- A fetch that is not displaced keeps its entry in the table for as long as it may need it. -/
theorem isCurrent (h : t.Trace (t.start store) trace s) (hi : Undisplaced trace i)
    (hpending : (s.phase i).Pending g) : s.ledger.flights.isCurrent (t.key i) g = true :=
  h.tracked.table.isCurrent_iff.2
    ((h.tracked.kept i g hpending).resolve_right (h.not_displaced hi))

theorem isCancelled (h : t.Trace (t.start store) trace s) (hi : Undisplaced trace i)
    (hpending : (s.phase i).Pending g) : s.ledger.flights.isCancelled g = false :=
  h.tracked.table.live (h.tracked.table.isCurrent_iff.1 (h.isCurrent hi hpending))

theorem step_reply (h : t.Trace (t.start store) trace s) (hi : Undisplaced trace i)
    (hphase : s.phase i = .waiting g) {outcome : Outcome} {v : t.Value i}
    (hread : (t.fetch i).read outcome = .ok v) :
    t.step s (.move i (.reply outcome)) = some (s.put i (.arrived g v) s.ledger) := by
  have hlive := h.isCancelled hi (Or.inl hphase)
  rw [step, hphase]
  change some (s.put i (LedgerClient.received (t.fetch i) g outcome s.ledger) s.ledger) = _
  rw [LedgerClient.received_of_ok hlive hread]

theorem step_commit (h : t.Trace (t.start store) trace s) (hi : Undisplaced trace i)
    {v : t.Value i} (hphase : s.phase i = .arrived g v) {stored : CacheStore}
    (hstore : s.ledger.store.store (t.key i) t.client.schema.name ((t.fetch i).encode v) =
      .ok stored) :
    t.step s (.move i .commit) =
      some (s.put i (.ended (.ok v)) ⟨s.ledger.flights.clear (t.key i), stored⟩) := by
  have hcurrent := h.isCurrent hi (Or.inr ⟨v, hphase⟩)
  rw [step, hphase]
  change some (s.put i (t.client.committed (t.fetch i) g v s.ledger).1
    (t.client.committed (t.fetch i) g v s.ledger).2) = _
  rw [t.client.committed_of_stored hcurrent hstore]
  rfl

end Trace

/-! ## How a fetch that is not displaced ends -/

theorem phase_of_step_ne {s s' : t.State} {i j : ι} {m : Fetch.Move}
    (h : t.step s (.move j m) = some s') (hne : i ≠ j) : s'.phase i = s.phase i := by
  obtain ⟨⟨phase, ledger⟩, -, hs'⟩ := Option.bind_eq_some_iff.1 h
  cases hs'
  exact s.put_phase_ne hne _ _

theorem waiting_of_reply {s s' : t.State} {i : ι} {outcome : Outcome}
    (h : t.step s (.move i (.reply outcome)) = some s') : ∃ g, s.phase i = .waiting g := by
  obtain ⟨⟨phase, ledger⟩, hmove, -⟩ := Option.bind_eq_some_iff.1 h
  cases hphase : s.phase i with
  | waiting g => exact ⟨g, rfl⟩
  | _ =>
      rw [hphase] at hmove
      cases hmove

theorem commit_of_arrived {s s' : t.State} {i : ι} {m : Fetch.Move} {g : Nat} {v : t.Value i}
    (hphase : s.phase i = .arrived g v) (h : t.step s (.move i m) = some s') : m = .commit := by
  obtain ⟨⟨phase, ledger⟩, hmove, -⟩ := Option.bind_eq_some_iff.1 h
  rw [hphase] at hmove
  cases m <;> first | rfl | cases hmove

theorem step_of_ended {s : t.State} {i : ι} {m : Fetch.Move}
    {result : Except LedgerError (t.Value i)} (hphase : s.phase i = .ended result) :
    t.step s (.move i m) = none := by
  rw [step, hphase]
  cases m <;> rfl

/-- A fetch whose reply brought a value is about to commit it, returned it, or could not write it to
the cache. -/
def Answered (t : Traffic ι) (trace : List t.Transition) (s : t.State) (i : ι) (v : t.Value i) :
    Prop :=
  (∃ g, s.phase i = .arrived g v) ∨ s.phase i = .ended (.ok v) ∨
    ∃ u ∈ trace, u.event = .move i .commit ∧ ∃ fault,
      u.before.ledger.store.store (t.key i) t.client.schema.name ((t.fetch i).encode v) =
        .error fault

namespace Trace

variable {trace : List t.Transition} {s s' : t.State} {store : CacheStore} {i : ι}
  {event : Event ι} {u : t.Transition} {v : t.Value i}

theorem begun_of_move (h : t.Trace (t.start store) trace s) (hu : u ∈ trace) {m : Fetch.Move}
    (hm : u.event = .move i m) : i ∈ begins trace := by
  obtain ⟨earlier, later, rfl⟩ := List.append_of_mem hu
  obtain ⟨hearlier, hstep⟩ := h.split rfl
  by_cases hbegin : m = .begin
  · exact List.mem_filterMap.2 ⟨u, hu, begun?_eq_some.2 (by rw [hm, hbegin])⟩
  · have hbusy : ¬ u.before.phase i = .idle := by
      intro hidle
      rw [hm, step, hidle] at hstep
      cases m <;> first | exact hbegin rfl | cases hstep
    rw [hearlier.accounted.idle, not_not] at hbusy
    rw [begins, List.filterMap_append]
    exact List.mem_append_left _ hbusy

theorem answered_step (h : t.Trace (t.start store) trace s) (hi : Undisplaced trace i)
    (hstep : t.step s event = some s') (hquiet : ¬ t.Displaces event (t.key i))
    (hv : t.Answered trace s i v) : t.Answered (trace ++ [⟨s, event, s'⟩]) s' i v := by
  cases event with
  | cancelAll => exact absurd (Or.inl rfl) hquiet
  | move j m =>
      rcases hv with ⟨g, hphase⟩ | hphase | ⟨u, hu, hfailed⟩
      · rcases eq_or_ne i j with rfl | hne
        · cases commit_of_arrived hphase hstep
          cases hstore : s.ledger.store.store (t.key i) t.client.schema.name
              ((t.fetch i).encode v) with
          | ok stored =>
              rw [h.step_commit hi hphase hstore] at hstep
              cases hstep
              exact Or.inr (Or.inl (s.put_phase_self _ _ _))
          | error fault =>
              exact Or.inr (Or.inr ⟨⟨s, _, s'⟩, by simp, rfl, fault, hstore⟩)
        · exact Or.inl ⟨g, by rw [phase_of_step_ne hstep hne, hphase]⟩
      · rcases eq_or_ne i j with rfl | hne
        · rw [step_of_ended hphase] at hstep
          cases hstep
        · exact Or.inr (Or.inl (by rw [phase_of_step_ne hstep hne, hphase]))
      · exact Or.inr (Or.inr ⟨u, List.mem_append_left _ hu, hfailed⟩)

theorem answered (h : t.Trace (t.start store) trace s) (hi : Undisplaced trace i)
    {outcome : Outcome} (hreply : ∃ u ∈ trace, u.event = .move i (.reply outcome))
    (hread : (t.fetch i).read outcome = .ok v) : t.Answered trace s i v := by
  induction h with
  | nil =>
      obtain ⟨u, hu, -⟩ := hreply
      cases hu
  | @snoc trace s event s' htrace next ih =>
      obtain ⟨u, hu, hevent⟩ := hreply
      rcases List.mem_append.1 hu with hu | hu
      · have hbegun := htrace.begun_of_move hu hevent
        have honce : event ≠ .move i .begin :=
          fun hbegin => (htrace.snoc next).not_begun_earlier rfl hbegin hbegun
        obtain ⟨hi', hquiet⟩ := hi.of_concat honce
        exact htrace.answered_step hi' next hquiet (ih hi' ⟨u, hu, hevent⟩)
      · cases List.mem_singleton.1 hu
        change event = _ at hevent
        subst hevent
        obtain ⟨g, hphase⟩ := waiting_of_reply next
        rw [htrace.step_reply (hi.of_concat nofun).1 hphase hread] at next
        cases next
        exact Or.inl ⟨g, s.put_phase_self _ _ _⟩

end Trace

/-- What can happen to a fetch that has not been displaced: it may write when its value is there, a
reply that brings a value leaves it with that value, and then it returns the value, unless the cache
cannot be written. -/
structure Unhindered (t : Traffic ι) (trace : List t.Transition) (s : t.State) (i : ι) : Prop where
  current : ∀ g, (s.phase i).Pending g → s.ledger.flights.isCurrent (t.key i) g = true
  uncancelled : s.phase i ≠ .ended (.error .cancelled)
  replied : ∀ g outcome v, s.phase i = .waiting g → (t.fetch i).read outcome = .ok v →
    t.step s (.move i (.reply outcome)) = some (s.put i (.arrived g v) s.ledger)
  stored : ∀ g v stored, s.phase i = .arrived g v →
    s.ledger.store.store (t.key i) t.client.schema.name ((t.fetch i).encode v) = .ok stored →
    t.step s (.move i .commit) =
      some (s.put i (.ended (.ok v)) ⟨s.ledger.flights.clear (t.key i), stored⟩)
  returned : ∀ outcome v, (∃ u ∈ trace, u.event = .move i (.reply outcome)) →
    (t.fetch i).read outcome = .ok v → t.Answered trace s i v
  wrote : ∀ v, s.phase i = .ended (.ok v) → ⟨i, v⟩ ∈ writes trace

namespace Trace

variable {trace : List t.Transition} {s : t.State} {store : CacheStore} {i : ι}

theorem unhindered (h : t.Trace (t.start store) trace s) (hi : Undisplaced trace i) :
    t.Unhindered trace s i where
  current _ := h.isCurrent hi
  uncancelled hcancelled := h.not_displaced hi (h.tracked.cancelled i hcancelled)
  replied _ _ _ hphase := h.step_reply hi hphase
  stored _ _ _ hphase := h.step_commit hi hphase
  returned _ _ := h.answered hi
  wrote v := (h.accounted.returned i v).1

/-- In the table an entry is that of one fetch, which took its generation and is under way. -/
theorem owner (h : t.Trace (t.start store) trace s) {key : CacheKey} {g : Nat}
    (hmem : (key, g) ∈ s.ledger.flights.current) :
    ∃ i, t.key i = key ∧ (s.phase i).generation? = some g ∧ ∀ j, Took trace j g ↔ j = i := by
  obtain ⟨i, hkey, hi⟩ := h.tracked.owned key g (h.tracked.table.generation?_of_mem hmem)
  have htook := h.tracked.took i g hi
  refine ⟨i, hkey, hi, ?_⟩
  intro j
  constructor
  · intro hj
    exact h.tracked.unshared j i g hj htook
  · rintro rfl
    exact htook

/-- Whatever the order of the steps is: only what displaces a fetch cancels it, and a fetch that is
not displaced returns the value of its reply, if the cache can be written. The table has one entry
for a key at most, which is not cancelled and is that of one fetch. When all that began have
returned, the table is empty. -/
theorem fetches_settle (h : t.Trace (t.start store) trace s) :
    (∀ i, s.phase i = .ended (.error .cancelled) → Displaced trace i) ∧
    (∀ i, Undisplaced trace i → t.Unhindered trace s i) ∧
    (s.ledger.flights.current.map Prod.fst).Nodup ∧
    (∀ key g, (key, g) ∈ s.ledger.flights.current → s.ledger.flights.isCancelled g = false ∧
      ∃ i, t.key i = key ∧ (s.phase i).generation? = some g ∧ ∀ j, Took trace j g ↔ j = i) ∧
    ((∀ i, s.phase i = .idle ∨ ∃ result, s.phase i = .ended result) →
      s.ledger.flights.current = []) := by
  refine ⟨h.tracked.cancelled, fun _ => h.unhindered, h.tracked.table.keys, ?_, ?_⟩
  · intro key g hmem
    exact ⟨h.tracked.table.live (h.tracked.table.generation?_of_mem hmem), h.owner hmem⟩
  · intro hover
    apply List.eq_nil_iff_forall_not_mem.2
    rintro ⟨key, g⟩ hmem
    obtain ⟨i, -, hi, -⟩ := h.owner hmem
    rcases hover i with hidle | ⟨result, hended⟩
    · rw [hidle] at hi
      cases hi
    · rw [hended] at hi
      cases hi

/-- How a fetch of a balance ended: with an amount, or cancelled. -/
def ending? : Fetch.Phase UInt64 → Option (Option UInt64)
  | .ended (.ok amount) => some (some amount)
  | .ended (.error .cancelled) => some none
  | _ => none

theorem eq_of_ending? {phase : Fetch.Phase UInt64} {amount : Option UInt64}
    (h : ending? phase = some amount) :
    phase = .ended (amount.elim (.error .cancelled) .ok) := by
  unfold ending? at h
  split at h <;> cases h <;> rfl

theorem fetches_settle_overlapping : ∃ trace s,
    overlapping.Trace (overlapping.start .empty) trace s ∧ Displaced trace false ∧
    s.phase true = .ended (.ok (5 : UInt64)) ∧ s.ledger.flights.current = [] := by
  have hended : (overlapping.follow ([], overlapping.start .empty) overlap).map
      (fun traced => (ending? (traced.2.phase false), ending? (traced.2.phase true))) =
        some (some none, some (some 5)) := by decide +kernel
  obtain ⟨⟨trace, s⟩, hfollow, hphases⟩ := Option.map_eq_some_iff.1 hended
  have hfalse := eq_of_ending? (congrArg Prod.fst hphases)
  have htrue := eq_of_ending? (congrArg Prod.snd hphases)
  have h : overlapping.Trace (overlapping.start .empty) trace s := Trace.nil.follow hfollow
  obtain ⟨hcancelled, -, -, -, hempty⟩ := fetches_settle h
  refine ⟨trace, s, h, hcancelled false hfalse, htrue, hempty ?_⟩
  intro i
  cases i with
  | false => exact Or.inr ⟨_, hfalse⟩
  | true => exact Or.inr ⟨_, htrue⟩

end Trace

end Traffic

end CashWallet
