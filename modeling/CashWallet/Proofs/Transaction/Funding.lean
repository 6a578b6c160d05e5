import CashWallet.Proofs.Transaction.Selection
import Mathlib.Algebra.BigOperators.Group.List.Basic

/-!
# When outputs are chosen

Whether candidates can fund a payment is decided by their clamped total and the fee for all of them,
in whatever order they come. If they can, the search along the ordered candidates ends at the latest
with the last of them, so it never runs out; it ends with the shortest part of the front that covers
the target and its own fee.
-/

namespace CashWallet

open List (Perm)

namespace Selector

variable {s : Selector} {target : UInt64}

theorem covers_perm {us us' : List Unspent} (h : us.Perm us') :
    s.Covers target us ↔ s.Covers target us' := by
  rw [Covers, Covers, Unspent.total_perm h, h.length_eq]

/-- Nothing covers nothing but a target of zero. -/
theorem not_covers_nil (htarget : target ≠ 0) : ¬ s.Covers target [] := by
  intro h
  rw [covers_iff] at h
  have hzero : (Unspent.total []).toNat = 0 := rfl
  have hpos : target.toNat ≠ 0 := fun heq => htarget (UInt64.toNat_inj.1 heq)
  have hmax : 0 < maxAmount := by decide
  omega

/-! ## The order of the candidates -/

/-- A list of candidates in descending order of their values; those of one value stand in the order
in which they were given. -/
structure Descending (candidates ordered : List Unspent) : Prop where
  perm : ordered.Perm candidates
  sorted : ordered.Pairwise fun a b => b.value ≤ a.value
  stable : ∀ value, ordered.filter (·.value = value) = candidates.filter (·.value = value)

/-- Candidates of one value are in order already, so sorting keeps them as a part. -/
theorem filter_sublist_byValue (candidates : List Unspent) (value : UInt64) :
    (candidates.filter (·.value = value)).Sublist (byValue candidates) := by
  apply List.sublist_mergeSort order_trans order_total
  · apply List.pairwise_of_forall_mem_list
    intro a ha b hb
    have hvalue : a.value = value := by simpa using (List.mem_filter.1 ha).2
    have hvalue' : b.value = value := by simpa using (List.mem_filter.1 hb).2
    simp [hvalue, hvalue']
  · exact List.filter_sublist

theorem byValue_descending (candidates : List Unspent) :
    Descending candidates (byValue candidates) where
  perm := byValue_perm candidates
  sorted := byValue_sorted candidates
  stable := by
    intro value
    have hsub := (filter_sublist_byValue candidates value).filter (·.value = value)
    simp only [List.filter_filter, Bool.and_self] at hsub
    have hlength := ((byValue_perm candidates).filter (·.value = value)).length_eq
    exact (hsub.eq_of_length hlength.symm).symm

/-! ## The search -/

/-- The shortest part of the front that holds at least one output and covers the target and its own
fee. -/
structure ShortestFront (s : Selector) (target : UInt64) (ordered front : List Unspent) : Prop where
  isFront : front <+: ordered
  ne_nil : front ≠ []
  covers : s.Covers target front
  least : ∀ part, part <+: ordered → part ≠ [] → s.Covers target part → front.length ≤ part.length

/-- The search ends at the latest with the last candidate. -/
theorem exists_take? {taken rest : List Unspent} (hrest : rest ≠ [])
    (hcovers : s.Covers target (taken ++ rest)) :
    ∃ selection, s.take? target taken (Unspent.total taken) rest = some selection := by
  induction rest generalizing taken with
  | nil => exact absurd rfl hrest
  | cons u rest ih =>
      rw [take?_cons]
      by_cases hhere : s.Covers target (taken ++ [u])
      · rw [if_pos hhere]
        exact ⟨_, rfl⟩
      · rw [if_neg hhere]
        apply ih
        · -- were `u` the last candidate, all of them together would not cover
          rintro rfl
          exact hhere hcovers
        · rwa [List.append_assoc]

/-- What the search over a whole list ends with. -/
theorem shortestFront_of_take? {ordered : List Unspent} {selection : Selection}
    (h : s.take? target [] 0 ordered = some selection) :
    s.ShortestFront target ordered selection.chosen ∧
      selection.fee = s.feeFor selection.chosen.length := by
  have htotal : Unspent.total [] = 0 := rfl
  rw [← htotal] at h
  obtain ⟨front, back, hordered, hne, rfl, hcovers, hshortest⟩ := take?_eq_some h
  have hfront : front <+: ordered := ⟨back, hordered.symm⟩
  refine ⟨⟨hfront, hne, hcovers, ?_⟩, rfl⟩
  intro part hpart hpartNe hpartCovers
  by_contra hlt
  have hlt : part.length < front.length := Nat.lt_of_not_le hlt
  have hpre : part <+: front := List.prefix_of_prefix_length_le hpart hfront (Nat.le_of_lt hlt)
  have hdiffers : part ≠ front := by
    rintro rfl
    exact Nat.lt_irrefl _ hlt
  exact hshortest part hpre hpartNe hdiffers hpartCovers

theorem exists_shortestFront {candidates : List Unspent} (htarget : target ≠ 0)
    (hcovers : s.Covers target candidates) :
    ∃ front, s.ShortestFront target (byValue candidates) front ∧
      s.take? target [] 0 (byValue candidates) = some ⟨front, s.feeFor front.length⟩ := by
  have hordered : s.Covers target ([] ++ byValue candidates) :=
    (covers_perm (byValue_perm candidates)).2 hcovers
  have hne : byValue candidates ≠ [] := by
    intro hnil
    rw [hnil] at hordered
    exact not_covers_nil htarget hordered
  obtain ⟨⟨chosen, fee⟩, htake⟩ := exists_take? hne hordered
  obtain ⟨hfront, hfee⟩ := shortestFront_of_take? htake
  dsimp only at hfront hfee
  subst hfee
  exact ⟨chosen, hfront, htake⟩

/-! ## The outcome -/

/-- A target of zero is refused. Any other is funded exactly if all candidates together cover it, by
the shortest front of the ordered candidates that covers it, which the search always finds; else the
fault tells what all candidates would have to hold and what they hold. -/
theorem select_outcome (s : Selector) (candidates : List Unspent) (target : UInt64) :
    Descending candidates (byValue candidates) ∧
    (target = 0 → s.select candidates target = .error .zeroAmount ∧
      TransactionError.zeroAmount.kind = "InvalidTransaction") ∧
    (target ≠ 0 → s.Covers target candidates →
      ∃ front, s.ShortestFront target (byValue candidates) front ∧
        s.take? target [] 0 (byValue candidates) = some ⟨front, s.feeFor front.length⟩ ∧
        s.select candidates target = .ok ⟨front, s.feeFor front.length⟩) ∧
    (target ≠ 0 → ¬ s.Covers target candidates →
      s.select candidates target =
        .error (.insufficientFunds (satAdd target (s.feeFor candidates.length))
          (Unspent.total candidates))) := by
  refine ⟨byValue_descending candidates, ?_, ?_, ?_⟩
  · intro htarget
    exact ⟨by rw [select, if_pos htarget], rfl⟩
  · intro htarget hcovers
    obtain ⟨front, hfront, htake⟩ := exists_shortestFront htarget hcovers
    have henough : ¬ Unspent.total candidates < satAdd target (s.feeFor candidates.length) :=
      UInt64.not_lt.2 hcovers
    refine ⟨front, hfront, htake, ?_⟩
    simp only [select, if_neg htarget, if_neg henough, htake]
  · intro htarget hshort
    have hless : Unspent.total candidates < satAdd target (s.feeFor candidates.length) :=
      UInt64.not_le.1 hshort
    simp only [select, if_neg htarget, if_pos hless]

/-- A rate at which every fee is cut off. -/
def steep : Selector := ⟨0xffffffffffffffff, .standard⟩

/-- Two outputs whose total is cut off, and one between them that is worth little. -/
def amassed : List Unspent :=
  [0x8000000000000000, 5, 0xffffffffffffffff].map fun value => ⟨⟨value, .empty⟩, ⟨.zero, 0⟩⟩

theorem select_outcome_cut :
    ((7 : UInt64) ≠ 0 ∧ steep.Covers 7 amassed ∧
      ∃ front, steep.ShortestFront 7 (byValue amassed) front ∧
        steep.select amassed 7 = .ok ⟨front, steep.feeFor front.length⟩) ∧
    ((0 : UInt64) = 0 ∧ steep.select amassed 0 = .error .zeroAmount) ∧
    ((7 : UInt64) ≠ 0 ∧ ¬ steep.Covers 7 (amassed.take 2) ∧
      steep.select (amassed.take 2) 7 =
        .error (.insufficientFunds 0xffffffffffffffff 0x8000000000000005)) := by
  have hcovers : steep.Covers 7 amassed := by decide
  have hshort : ¬ steep.Covers 7 (amassed.take 2) := by decide
  obtain ⟨front, hfront, -, hselect⟩ := (select_outcome steep amassed 7).2.2.1 (by decide) hcovers
  have hzero := ((select_outcome steep amassed 0).2.1 rfl).1
  have hfault := (select_outcome steep (amassed.take 2) 7).2.2.2 (by decide) hshort
  exact ⟨⟨by decide, hcovers, front, hfront, hselect⟩, ⟨rfl, hzero⟩, by decide, hshort, hfault⟩

end Selector

end CashWallet
