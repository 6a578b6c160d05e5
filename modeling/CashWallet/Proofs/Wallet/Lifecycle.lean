import CashWallet.Proofs.Wallet.Course
import Mathlib.Data.List.Chain
import Mathlib.Data.List.Perm.Subperm

/-!
# Courses stay orderly

Whatever is called on the course of a payment, it begins with the stage at which nothing is funded
and goes on by stages that may follow each other. All else comes from these two facts: stages that
follow each other rise, so there are at most six and none comes back; an end is followed by nothing;
and a stage that is no end has come after all stages before it.
-/

namespace CashWallet

namespace SendState

/-- The stages in their order, and the ends that a payment may come to. -/
inductive Follows : SendState → SendState → Prop
  | selected : Follows .unfunded .selected
  | built : Follows .selected .built
  | signed : Follows .built .signed
  | submitted : Follows .signed .submitted
  | confirmed : Follows .submitted .confirmed
  | rejected : Follows .submitted .rejected
  | failed {s : SendState} {reason : String} (live : s.isTerminal = false) :
      Follows s (.failed reason)

theorem allows_iff {s next : SendState} : s.allows next = true ↔ s.Follows next := by
  constructor
  · intro h
    cases next with
    | failed reason => exact .failed (by simpa [allows] using h)
    | _ => cases s <;> first | contradiction | constructor
  · intro h
    cases h with
    | failed live => simpa [allows] using live
    | _ => rfl

/-- How far a payment has come; its ends are equally far. -/
def rank : SendState → Nat
  | unfunded => 0
  | selected => 1
  | built => 2
  | signed => 3
  | submitted => 4
  | _ => 5

theorem rank_le (s : SendState) : s.rank ≤ 5 := by
  cases s <;> simp [rank]

/-- Every stage that is no end is before the ends. -/
theorem rank_lt {s : SendState} (h : s.isTerminal = false) : s.rank < 5 := by
  cases s <;> first | contradiction | decide

namespace Follows

variable {s next : SendState}

theorem live (h : s.Follows next) : s.isTerminal = false := by
  cases h with
  | failed live => exact live
  | _ => rfl

theorem rank_lt (h : s.Follows next) : s.rank < next.rank := by
  cases h with
  | failed live => exact SendState.rank_lt live
  | _ => decide

/-- Without an end there is one stage after the other. -/
theorem rank_eq (h : s.Follows next) (hlive : next.isTerminal = false) :
    next.rank = s.rank + 1 := by
  cases h <;> first | contradiction | rfl

/-- What the network says of a payment comes right after it was submitted. -/
theorem eq_submitted (h : s.Follows next) (hnext : next ∈ [SendState.confirmed, .rejected]) :
    s = .submitted := by
  cases h <;> first | rfl | simp at hnext

end Follows

/-- The stages that are no ends stand at their ranks. -/
theorem stages_rank {s : SendState} (h : s.isTerminal = false) : stages[s.rank]? = some s := by
  cases s <;> first | contradiction | rfl

end SendState

namespace SendHistory

open SendState (Follows stages)

/-! ## Stages one after the other -/

/-- The first stage, and then stages that follow each other. -/
structure Begun (states : List SendState) : Prop where
  first : states[0]? = some .unfunded
  chain : states.IsChain Follows

namespace Begun

variable {states : List SendState} {place : Nat} {s : SendState}

theorem previous (h : Begun states) (hplace : states[place + 1]? = some s) :
    ∃ p, states[place]? = some p ∧ p.Follows s := by
  obtain ⟨hlt, rfl⟩ := List.getElem?_eq_some_iff.1 hplace
  exact ⟨_, List.getElem?_eq_getElem _, List.isChain_iff_getElem.1 h.chain place hlt⟩

/-- Each stage but the first has one before it. -/
theorem exists_previous (h : Begun states) (hs : s ≠ .unfunded) (hplace : states[place]? = some s) :
    ∃ before p, place = before + 1 ∧ states[before]? = some p ∧ p.Follows s := by
  cases place with
  | zero => exact absurd (Option.some_inj.1 (hplace.symm.trans h.first)) hs
  | succ before =>
      obtain ⟨p, hp, hfollows⟩ := h.previous hplace
      exact ⟨before, p, rfl, hp, hfollows⟩

theorem rising (h : Begun states) : (states.map SendState.rank).Pairwise (· < ·) := by
  rw [← List.isChain_iff_pairwise, List.isChain_map]
  exact h.chain.imp fun _ _ => Follows.rank_lt

theorem length_le (h : Begun states) : states.length ≤ 6 := by
  have hnodup : (states.map SendState.rank).Nodup := h.rising.imp Nat.ne_of_lt
  have hbound : states.map SendState.rank ⊆ List.range 6 := by
    intro n hn
    obtain ⟨s, -, rfl⟩ := List.mem_map.1 hn
    exact List.mem_range.2 (Nat.lt_succ_of_le s.rank_le)
  simpa using (hnodup.subperm hbound).length_le

/-- The first stage does not come back. -/
theorem not_mem_tail (h : Begun states) : .unfunded ∉ states.tail := by
  intro hmem
  cases states with
  | nil => cases hmem
  | cons first rest =>
      have hrising := (List.pairwise_cons.1 h.rising).1 _ (List.mem_map_of_mem hmem)
      exact Nat.not_lt_zero _ hrising

/-- Stages that are no ends stand where their ranks say. -/
theorem rank_eq (h : Begun states) (hplace : states[place]? = some s)
    (hlive : s.isTerminal = false) : s.rank = place := by
  induction place generalizing s with
  | zero => rw [Option.some_inj.1 (hplace.symm.trans h.first), SendState.rank]
  | succ place ih =>
      obtain ⟨p, hp, hfollows⟩ := h.previous hplace
      rw [hfollows.rank_eq hlive, ih hp hfollows.live]

/-- A stage that is no end comes after all stages before it. -/
theorem take_eq (h : Begun states) (hplace : states[place]? = some s)
    (hlive : s.isTerminal = false) : states.take (place + 1) = stages.take (place + 1) := by
  induction place generalizing s with
  | zero =>
      rw [List.take_add_one, h.first]
      rfl
  | succ place ih =>
      obtain ⟨p, hp, hfollows⟩ := h.previous hplace
      have hstage : stages[place + 1]? = some s := by
        rw [← h.rank_eq hplace hlive]
        exact SendState.stages_rank hlive
      rw [List.take_add_one, List.take_add_one (i := place + 1), ih hp hfollows.live, hplace,
        hstage]

theorem enter {h : SendHistory} (hbegun : Begun h.states) (hfollows : h.state.Follows s) :
    Begun (h.enter s).states where
  first := by
    rw [SendHistory.states, SendHistory.enter, List.getElem?_append_left (by simp [states])]
    exact hbegun.first
  chain := by
    rw [SendHistory.states, SendHistory.enter, List.isChain_append]
    refine ⟨hbegun.chain, List.isChain_singleton _, ?_⟩
    simpa [SendHistory.states] using hfollows

end Begun

/-! ## What a call does -/

/-- The effects that a call may have. -/
inductive Called (h : SendHistory) : Call → Except WalletError Unit → SendHistory → Prop
  | advanced {next : SendState} (follows : h.state.Follows next) :
      Called h (.advance next) (.ok ()) (h.enter next)
  | refused {next : SendState} (follows : ¬ h.state.Follows next) :
      Called h (.advance next) (.error (.invalidState h.state next)) h
  | failed {reason : String} (live : h.isTerminal = false) :
      Called h (.fail reason) (.ok ()) (h.enter (.failed reason))
  | ended {reason : String} (finished : h.isTerminal = true) : Called h (.fail reason) (.ok ()) h
  | restarted (finished : h.isTerminal = true) : Called h .restart (.ok ()) start
  | pending (live : h.isTerminal = false) :
      Called h .restart (.error (.invalidState h.state .unfunded)) h

theorem call_called (h : SendHistory) (c : Call) : h.Called c (h.call c).1 (h.call c).2 := by
  cases c with
  | advance next =>
      by_cases hfollows : h.state.Follows next
      · have hcall : h.call (.advance next) = (.ok (), h.enter next) := by
          simp only [call, advance, SendState.allows_iff.2 hfollows, if_true]
        rw [hcall]
        exact .advanced hfollows
      · have hcall : h.call (.advance next) = (.error (.invalidState h.state next), h) := by
          simp only [call, advance, SendState.allows_iff, hfollows, if_false]
        rw [hcall]
        exact .refused hfollows
  | fail reason =>
      cases hover : h.isTerminal with
      | false =>
          have hcall : h.call (.fail reason) = (.ok (), h.enter (.failed reason)) := by
            simp [call, fail, hover]
          rw [hcall]
          exact .failed hover
      | true =>
          have hcall : h.call (.fail reason) = (.ok (), h) := by simp [call, fail, hover]
          rw [hcall]
          exact .ended hover
  | restart =>
      cases hover : h.isTerminal with
      | false =>
          have hcall : h.call .restart = (.error (.invalidState h.state .unfunded), h) := by
            simp [call, restart, hover]
          rw [hcall]
          exact .pending hover
      | true =>
          have hcall : h.call .restart = (.ok (), start) := by simp [call, restart, hover]
          rw [hcall]
          exact .restarted hover

namespace Called

variable {h next : SendHistory} {c : Call} {result : Except WalletError Unit}

theorem eq_of_error {fault : WalletError} (hcalled : h.Called c (.error fault) next) :
    next = h := by
  cases hcalled <;> rfl

/-- An end is left by starting anew, and not otherwise. -/
theorem eq_of_terminal (hcalled : h.Called c result next) (hover : h.isTerminal = true)
    (hc : c ≠ .restart) : next = h := by
  cases hcalled with
  | advanced follows => exact absurd (follows.live.symm.trans hover) Bool.false_ne_true
  | failed live => exact absurd (live.symm.trans hover) Bool.false_ne_true
  | restarted => exact absurd rfl hc
  | refused | ended | pending => rfl

theorem begun (hcalled : h.Called c result next) (hbegun : Begun h.states) :
    Begun next.states := by
  cases hcalled with
  | advanced follows => exact hbegun.enter follows
  | failed live => exact hbegun.enter (.failed live)
  | restarted => exact ⟨rfl, List.isChain_singleton _⟩
  | refused | ended | pending => exact hbegun

end Called

theorem begun_after {h : SendHistory} (hbegun : Begun h.states) (calls : List Call) :
    Begun (h.after calls).states := by
  induction calls generalizing h with
  | nil => exact hbegun
  | cons c calls ih => exact ih ((h.call_called c).begun hbegun)

/-! ## Orderly courses -/

/-- What is always true of the course of a payment. -/
structure Orderly (h : SendHistory) : Prop where
  first : h.states.head? = some .unfunded
  once : .unfunded ∉ h.states.tail
  short : h.states.length ≤ 6
  allowed : h.states.IsChain fun s next => s.allows next = true
  live : ∀ s ∈ h.earlier, s.isTerminal = false
  settled : ∀ s ∈ [SendState.confirmed, .rejected], ∀ place, h.states[place]? = some s →
    ∃ before, place = before + 1 ∧ h.states[before]? = some .submitted
  submitted : ∀ place, h.states[place]? = some .submitted →
    h.states.take (place + 1) = [.unfunded, .selected, .built, .signed, .submitted]

theorem orderly_of_begun {h : SendHistory} (hbegun : Begun h.states) : h.Orderly where
  first := by
    rw [List.head?_eq_getElem?]
    exact hbegun.first
  once := hbegun.not_mem_tail
  short := hbegun.length_le
  allowed := hbegun.chain.imp fun _ _ => SendState.allows_iff.2
  live := by
    intro s hs
    obtain ⟨place, hplace⟩ := List.mem_iff_getElem?.1 hs
    have hlt := (List.getElem?_eq_some_iff.1 hplace).1
    have hnext : place + 1 < h.states.length := by
      rw [states, List.length_append, List.length_singleton]
      omega
    obtain ⟨p, hp, hfollows⟩ := hbegun.previous (List.getElem?_eq_getElem hnext)
    rw [states, List.getElem?_append_left hlt, hplace] at hp
    cases hp
    exact hfollows.live
  settled := by
    intro s hs place hplace
    have hs' : s ≠ .unfunded := by
      rintro rfl
      simp at hs
    obtain ⟨before, p, rfl, hp, hfollows⟩ := hbegun.exists_previous hs' hplace
    rw [hfollows.eq_submitted hs] at hp
    exact ⟨before, rfl, hp⟩
  submitted := by
    intro place hplace
    rw [hbegun.take_eq hplace rfl, ← hbegun.rank_eq hplace rfl]
    rfl

/-- After any calls the course of a payment is orderly. A call has one of the effects that are
told: one that is refused changes nothing, neither does a failure after the end, and only starting
anew leaves an end. -/
theorem calls_orderly (calls : List Call) :
    (start.after calls).Orderly ∧
    ∀ (h : SendHistory) (c : Call), h.Called c (h.call c).1 (h.call c).2 ∧
      (∀ fault, (h.call c).1 = .error fault → (h.call c).2 = h) ∧
      (h.isTerminal = true → (h.call c).2 ≠ h → c = .restart) := by
  refine ⟨orderly_of_begun (begun_after ⟨rfl, List.isChain_singleton _⟩ calls), ?_⟩
  intro h c
  have hcalled := h.call_called c
  refine ⟨hcalled, ?_, ?_⟩
  · intro fault hfault
    rw [hfault] at hcalled
    exact hcalled.eq_of_error
  · intro hover hchanged
    by_contra hc
    exact hchanged (hcalled.eq_of_terminal hover hc)

end SendHistory

end CashWallet
