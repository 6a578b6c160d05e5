import CashWallet.Proofs.Transaction.Fee
import Mathlib.Data.List.Perm.Subperm

/-!
# What is chosen

Outputs are taken off the front of the ordered candidates, so what is chosen is a shortest part of
the front that covers the target and its own fee. The fee grows with the number of outputs taken;
the last output taken is therefore worth something, and fewer than `2 ^ 64` outputs are ever taken.
-/

namespace CashWallet

namespace Unspent

theorem total_concat (us : List Unspent) (u : Unspent) :
    total (us ++ [u]) = satAdd (total us) u.value := by
  simp [total, satSum, List.foldl_append]

end Unspent

namespace Selector

variable {s : Selector} {target : UInt64}

theorem feeFor_mono (s : Selector) {n n' : Nat} (h : n ≤ n') :
    (s.feeFor n).toNat ≤ (s.feeFor n').toNat :=
  UInt64.le_iff_toNat_le.1
    (SizeModel.fee_mono (.refl _) (UInt64.le_refl _) h (Nat.le_refl outputCount))

/-- The outputs hold the target and the fee for spending them. -/
def Covers (s : Selector) (target : UInt64) (us : List Unspent) : Prop :=
  satAdd target (s.feeFor us.length) ≤ Unspent.total us

instance (s : Selector) (target : UInt64) (us : List Unspent) : Decidable (s.Covers target us) :=
  inferInstanceAs (Decidable (_ ≤ _))

theorem covers_iff {us : List Unspent} : s.Covers target us ↔
    min (target.toNat + (s.feeFor us.length).toNat) maxAmount ≤ (Unspent.total us).toNat := by
  rw [Covers, UInt64.le_iff_toNat_le, toNat_satAdd]

theorem take?_cons (s : Selector) (target : UInt64) (taken rest : List Unspent) (u : Unspent) :
    s.take? target taken (Unspent.total taken) (u :: rest) =
      if s.Covers target (taken ++ [u]) then
        some ⟨taken ++ [u], s.feeFor (taken ++ [u]).length⟩
      else s.take? target (taken ++ [u]) (Unspent.total (taken ++ [u])) rest := by
  rw [take?, ← Unspent.total_concat]
  rfl

/-- What is taken in addition to `taken` is the shortest non-empty front of the rest with which
the target and the fee are covered. -/
theorem take?_eq_some {taken rest : List Unspent} {selection : Selection}
    (h : s.take? target taken (Unspent.total taken) rest = some selection) :
    ∃ front back, rest = front ++ back ∧ front ≠ [] ∧
      selection = ⟨taken ++ front, s.feeFor (taken ++ front).length⟩ ∧
      s.Covers target (taken ++ front) ∧
      ∀ part, part <+: front → part ≠ [] → part ≠ front → ¬ s.Covers target (taken ++ part) := by
  induction rest generalizing taken with
  | nil => cases h
  | cons u rest ih =>
      rw [take?_cons] at h
      by_cases hcovers : s.Covers target (taken ++ [u])
      · rw [if_pos hcovers] at h
        refine ⟨[u], rest, rfl, List.cons_ne_nil _ _, (Option.some_inj.1 h).symm, hcovers, ?_⟩
        intro part hpart hnil hne
        rcases List.prefix_cons_iff.1 hpart with rfl | ⟨tail, rfl, htail⟩
        · exact absurd rfl hnil
        · rw [List.prefix_nil.1 htail] at hne
          exact absurd rfl hne
      · rw [if_neg hcovers] at h
        obtain ⟨front, back, hrest, hfront, hselection, hcovered, hshortest⟩ := ih h
        rw [List.append_assoc] at hselection hcovered
        refine ⟨u :: front, back, by rw [hrest, List.cons_append], List.cons_ne_nil _ _,
          hselection, hcovered, ?_⟩
        intro part hpart hnil hne
        rcases List.prefix_cons_iff.1 hpart with rfl | ⟨tail, rfl, htail⟩
        · exact absurd rfl hnil
        · by_cases htailNil : tail = []
          · rwa [htailNil]
          · have hstep := hshortest tail htail htailNil fun heq => hne (by rw [heq])
            rwa [List.append_assoc] at hstep

/-- The candidates that are chosen are the shortest front of the ordered ones that covers the
target and its own fee. -/
theorem select_eq_ok {candidates : List Unspent} {selection : Selection}
    (h : s.select candidates target = .ok selection) :
    ∃ back, byValue candidates = selection.chosen ++ back ∧ selection.chosen ≠ [] ∧
      selection.fee = s.feeFor selection.chosen.length ∧ s.Covers target selection.chosen ∧
      ∀ part, part <+: selection.chosen → part ≠ [] → part ≠ selection.chosen →
        ¬ s.Covers target part := by
  unfold select at h
  split at h
  · cases h
  dsimp only at h
  split at h
  · cases h
  split at h
  · next taken htaken =>
      cases h
      obtain ⟨front, back, hordered, hfront, rfl, hcovers, hshortest⟩ := take?_eq_some htaken
      exact ⟨back, hordered, hfront, rfl, hcovers, hshortest⟩
  · cases h

theorem byValue_perm (candidates : List Unspent) : (byValue candidates).Perm candidates :=
  List.mergeSort_perm candidates _

theorem order_trans (a b c : Unspent) (hab : decide (b.value ≤ a.value) = true)
    (hbc : decide (c.value ≤ b.value) = true) : decide (c.value ≤ a.value) = true := by
  simp only [decide_eq_true_eq] at hab hbc ⊢
  exact UInt64.le_trans hbc hab

theorem order_total (a b : Unspent) :
    (decide (b.value ≤ a.value) || decide (a.value ≤ b.value)) = true := by
  simp only [Bool.or_eq_true, decide_eq_true_eq]
  exact UInt64.le_total b.value a.value

theorem byValue_sorted (candidates : List Unspent) :
    (byValue candidates).Pairwise fun a b => b.value ≤ a.value := by
  have h : (byValue candidates).Pairwise fun a b => decide (b.value ≤ a.value) = true :=
    List.pairwise_mergeSort order_trans order_total candidates
  simpa only [decide_eq_true_eq] using h

/-- No candidate is chosen more often than it was given. -/
theorem chosen_subperm {candidates : List Unspent} {selection : Selection}
    (h : s.select candidates target = .ok selection) : selection.chosen.Subperm candidates := by
  obtain ⟨back, hordered, -⟩ := select_eq_ok h
  have hfront : selection.chosen.Sublist (byValue candidates) := by
    rw [hordered]
    exact List.sublist_append_left _ _
  exact hfront.subperm.trans (byValue_perm candidates).subperm

/-- Since the fee does not fall, an output that completes the cover has a value. -/
theorem value_pos_of_completes {us : List Unspent} {u : Unspent}
    (hcovers : s.Covers target (us ++ [u])) (hnot : ¬ s.Covers target us) :
    0 < u.value.toNat := by
  have hfee : (s.feeFor us.length).toNat ≤ (s.feeFor (us ++ [u]).length).toNat :=
    s.feeFor_mono (by rw [List.length_append]; omega)
  rw [covers_iff, Unspent.total_concat, toNat_satAdd] at hcovers
  rw [covers_iff] at hnot
  omega

theorem length_le_sum_of_pos {us : List Unspent} (h : ∀ u ∈ us, 0 < u.value.toNat) :
    us.length ≤ (us.map fun u => u.value.toNat).sum := by
  induction us with
  | nil => exact Nat.le_refl 0
  | cons u us ih =>
      have hu := h u List.mem_cons_self
      have hus := ih fun v hv => h v (List.mem_cons_of_mem u hv)
      simp only [List.length_cons, List.map_cons, List.sum_cons]
      omega

/-- However many candidates there are, the number of those chosen has 64 bits: all but the last do
not cover the target, and each of them is worth something. -/
theorem length_chosen_lt {candidates : List Unspent} {selection : Selection}
    (h : s.select candidates target = .ok selection) : selection.chosen.length < UInt64.size := by
  obtain ⟨back, hordered, hne, -, hcovers, hshortest⟩ := select_eq_ok h
  have hsorted := byValue_sorted candidates
  rw [hordered] at hsorted
  obtain ⟨us, u, hchosen⟩ : ∃ us u, selection.chosen = us ++ [u] :=
    ⟨_, _, (List.dropLast_append_getLast hne).symm⟩
  rw [hchosen] at hcovers hshortest hsorted ⊢
  by_cases hus : us = []
  · rw [hus, List.nil_append, List.length_singleton]
    decide
  have hnot : ¬ s.Covers target us := by
    apply hshortest us (List.prefix_append _ _) hus
    intro heq
    have hlength := congrArg List.length heq
    rw [List.length_append] at hlength
    simp at hlength
  have hu := value_pos_of_completes hcovers hnot
  have hpos : ∀ v ∈ us, 0 < v.value.toNat := by
    intro v hv
    have hle : u.value ≤ v.value :=
      (List.pairwise_append.1 (List.pairwise_append.1 hsorted).1).2.2 v hv u List.mem_cons_self
    have := UInt64.le_iff_toNat_le.1 hle
    omega
  have hlength := length_le_sum_of_pos hpos
  have hshort : (Unspent.total us).toNat < maxAmount := by
    rw [covers_iff] at hnot
    omega
  rw [Unspent.toNat_total] at hshort
  rw [List.length_append, List.length_singleton]
  have hsize : UInt64.size = maxAmount + 1 := rfl
  omega

end Selector

end CashWallet
