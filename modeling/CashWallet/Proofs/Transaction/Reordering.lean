import CashWallet.Proofs.Transaction.FewestInputs
import Mathlib.Data.List.Nodup

/-!
# Candidates in another order

Whether outputs cover a target is told by their values and their number. In descending order the
values of the candidates are the same however the candidates were given, so the search ends at the
same place, with the same fee and the same values. Only which of several outputs of one value are
taken depends on the order: it is always those that were given first.
-/

namespace CashWallet

open List (Perm)

/-- What a selection comes to in numbers: the values that it spends, in order, and the fee. -/
def Selection.figures (selection : Selection) : List UInt64 × UInt64 :=
  (selection.chosen.map Unspent.value, selection.fee)

namespace Selector

variable {s : Selector} {target : UInt64}
  {candidates candidates' taken taken' rest rest' : List Unspent}

/-! ## Values decide -/

theorem total_congr {us us' : List Unspent} (h : us.map Unspent.value = us'.map Unspent.value) :
    Unspent.total us = Unspent.total us' := by
  rw [Unspent.total, Unspent.total, h]

theorem length_congr {us us' : List Unspent} (h : us.map Unspent.value = us'.map Unspent.value) :
    us.length = us'.length := by
  simpa using congrArg List.length h

theorem covers_congr {us us' : List Unspent} (h : us.map Unspent.value = us'.map Unspent.value) :
    s.Covers target us ↔ s.Covers target us' := by
  rw [Covers, Covers, total_congr h, length_congr h]

/-- Along outputs of the same values the search ends at the same place. -/
theorem take?_congr (htaken : taken.map Unspent.value = taken'.map Unspent.value)
    (hrest : rest.map Unspent.value = rest'.map Unspent.value) :
    (s.take? target taken (Unspent.total taken) rest).map Selection.figures =
      (s.take? target taken' (Unspent.total taken') rest').map Selection.figures := by
  induction rest generalizing taken taken' rest' with
  | nil =>
      have hnil : rest' = [] := List.map_eq_nil_iff.1 hrest.symm
      subst hnil
      rfl
  | cons u rest ih =>
      cases rest' with
      | nil => cases hrest
      | cons u' rest' =>
          obtain ⟨hu, hrest⟩ := List.cons.inj hrest
          have hnext : (taken ++ [u]).map Unspent.value = (taken' ++ [u']).map Unspent.value := by
            rw [List.map_append, List.map_append, htaken, List.map_singleton, List.map_singleton,
              hu]
          rw [take?_cons, take?_cons]
          by_cases hcovers : s.Covers target (taken ++ [u])
          · rw [if_pos hcovers, if_pos ((covers_congr hnext).1 hcovers)]
            simp only [Option.map_some, Selection.figures, hnext, length_congr hnext]
          · rw [if_neg hcovers, if_neg fun h => hcovers ((covers_congr hnext).2 h)]
            exact ih hnext hrest

/-! ## The order of the candidates -/

theorem map_value_byValue_perm (h : candidates.Perm candidates') :
    (byValue candidates).map Unspent.value = (byValue candidates').map Unspent.value := by
  have hsorted (us : List Unspent) :
      ((byValue us).map Unspent.value).Pairwise fun v w => w ≤ v :=
    List.pairwise_map.2 (byValue_sorted us)
  apply Perm.eq_of_pairwise ?_ (hsorted candidates) (hsorted candidates')
  · exact (((byValue_perm candidates).trans h).trans (byValue_perm candidates').symm).map _
  · intro v w _ _ hle hge
    exact UInt64.le_antisymm hge hle

/-- Without ties there is only one descending order. -/
theorem byValue_eq_of_perm (hdistinct : (candidates.map Unspent.value).Nodup)
    (h : candidates.Perm candidates') : byValue candidates = byValue candidates' := by
  have hperm := ((byValue_perm candidates).trans h).trans (byValue_perm candidates').symm
  apply Perm.eq_of_pairwise ?_ (byValue_sorted candidates) (byValue_sorted candidates') hperm
  intro u u' hu hu' hle hge
  have hmem := (byValue_perm candidates).mem_iff.1 hu
  have hmem' := (byValue_perm candidates).mem_iff.1 (hperm.mem_iff.2 hu')
  exact List.inj_on_of_nodup_map hdistinct hmem hmem' (UInt64.le_antisymm hge hle)

/-- The order of the candidates does not show in the numbers that a selection ends with. -/
theorem select_figures (s : Selector) (target : UInt64) (h : candidates.Perm candidates') :
    (s.select candidates target).map Selection.figures =
      (s.select candidates' target).map Selection.figures := by
  have hordered (us : List Unspent) : Unspent.total (byValue us) = Unspent.total us :=
    Unspent.total_perm (byValue_perm us)
  have htake : (s.take? target [] 0 (byValue candidates)).map Selection.figures =
      (s.take? target [] 0 (byValue candidates')).map Selection.figures :=
    take?_congr rfl (map_value_byValue_perm h)
  simp only [select, hordered, Unspent.total_perm h, h.length_eq]
  split
  · rfl
  split
  · rfl
  cases hfound : s.take? target [] 0 (byValue candidates) with
  | none =>
      rw [hfound, Option.map_none] at htake
      rw [Option.map_eq_none_iff.1 htake.symm]
  | some selection =>
      rw [hfound, Option.map_some] at htake
      obtain ⟨selection', hfound', hfigures⟩ := Option.map_eq_some_iff.1 htake.symm
      rw [hfound']
      exact congrArg Except.ok hfigures.symm

/-- Two outcomes of a selection that tell the same: the same fault with the same numbers, or the
same fee for as many outputs with the same values in descending order. -/
inductive Alike : Except TransactionError Selection → Except TransactionError Selection → Prop
  | refused (fault : TransactionError) : Alike (.error fault) (.error fault)
  | funded (selection selection' : Selection) (fee : selection.fee = selection'.fee)
      (count : selection.chosen.length = selection'.chosen.length)
      (values : selection.chosen.map Unspent.value = selection'.chosen.map Unspent.value)
      (descending : (selection.chosen.map Unspent.value).Pairwise fun v w => w ≤ v) :
      Alike (.ok selection) (.ok selection')

theorem chosen_descending {selection : Selection}
    (h : s.select candidates target = .ok selection) :
    (selection.chosen.map Unspent.value).Pairwise fun v w => w ≤ v := by
  obtain ⟨back, hordered, -⟩ := select_eq_ok h
  have hsorted := byValue_sorted candidates
  rw [hordered] at hsorted
  exact List.pairwise_map.2 (List.pairwise_append.1 hsorted).1

theorem select_alike (s : Selector) (target : UInt64) (h : candidates.Perm candidates') :
    Alike (s.select candidates target) (s.select candidates' target) := by
  have hfigures := select_figures s target h
  cases hselect : s.select candidates target with
  | error fault =>
      cases hselect' : s.select candidates' target with
      | error fault' =>
          rw [hselect, hselect'] at hfigures
          cases hfigures
          exact .refused fault
      | ok selection' =>
          rw [hselect, hselect'] at hfigures
          cases hfigures
  | ok selection =>
      cases hselect' : s.select candidates' target with
      | error fault' =>
          rw [hselect, hselect'] at hfigures
          cases hfigures
      | ok selection' =>
          rw [hselect, hselect'] at hfigures
          obtain ⟨hvalues, hfee⟩ := Prod.mk.inj (Except.ok.inj hfigures)
          exact .funded selection selection' hfee (length_congr hvalues) hvalues
            (chosen_descending hselect)

/-- Of the candidates of one value those are chosen that were given first. -/
theorem chosen_filter_prefix {selection : Selection}
    (h : s.select candidates target = .ok selection) (value : UInt64) :
    selection.chosen.filter (·.value = value) <+: candidates.filter (·.value = value) := by
  obtain ⟨back, hordered, -⟩ := select_eq_ok h
  rw [← (byValue_descending candidates).stable value, hordered, List.filter_append]
  exact List.prefix_append _ _

/-- The order of the candidates matters for ties alone. In any order they are refused with the same
fault or funded by the same values and with the same fee, without ties by the same outputs. Among
candidates of one value those are chosen that were given first, in the order given. -/
theorem select_reordered (s : Selector) (target : UInt64) (candidates : List Unspent) :
    (∀ candidates', candidates.Perm candidates' →
      Alike (s.select candidates target) (s.select candidates' target) ∧
        ((candidates.map Unspent.value).Nodup →
          s.select candidates target = s.select candidates' target)) ∧
    (∀ selection, s.select candidates target = .ok selection → ∀ value,
      selection.chosen.filter (·.value = value) <+: candidates.filter (·.value = value)) := by
  refine ⟨fun candidates' h => ⟨select_alike s target h, fun hdistinct => ?_⟩,
    fun selection h value => chosen_filter_prefix h value⟩
  simp only [select, byValue_eq_of_perm hdistinct h, Unspent.total_perm h, h.length_eq]

def coinAt (value : UInt64) (place : UInt32) : Unspent :=
  ⟨⟨value, .empty⟩, ⟨.zero, place⟩⟩

/-- Two outputs of one value, with a greater one between them. -/
def tied : List Unspent :=
  [coinAt 700 0, coinAt 900 1, coinAt 700 2]

/-- One of the two equal outputs is needed, and the first is taken. -/
theorem select_reordered_tied :
    (tied.Perm tied.reverse ∧
      Alike (frugal.select tied 1200) (frugal.select tied.reverse 1200)) ∧
    (purse.Perm purse.reverse ∧ (purse.map Unspent.value).Nodup ∧
      frugal.select purse 1800 = frugal.select purse.reverse 1800) ∧
    (frugal.select tied 1200 = .ok ⟨[coinAt 900 1, coinAt 700 0], 374⟩ ∧
      [coinAt 900 1, coinAt 700 0].filter (·.value = 700) <+: tied.filter (·.value = 700)) := by
  have htied : tied.Perm tied.reverse := (List.reverse_perm tied).symm
  have hpurse : purse.Perm purse.reverse := (List.reverse_perm purse).symm
  have hdistinct : (purse.map Unspent.value).Nodup := by decide
  have hordered : byValue tied = [coinAt 900 1, coinAt 700 0, coinAt 700 2] := by
    simp [byValue, tied, coinAt, Unspent.value, List.mergeSort]
  have hselect : frugal.select tied 1200 = .ok ⟨[coinAt 900 1, coinAt 700 0], 374⟩ := by
    rw [select, hordered]
    rfl
  exact ⟨⟨htied, ((select_reordered frugal 1200 tied).1 _ htied).1⟩,
    ⟨hpurse, hdistinct, ((select_reordered frugal 1800 purse).1 _ hpurse).2 hdistinct⟩,
    hselect, (select_reordered frugal 1200 tied).2 _ hselect 700⟩

end Selector

end CashWallet
