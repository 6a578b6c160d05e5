import CashWallet.Proofs.Transaction.Funding

/-!
# No fewer outputs would do

Among the choices of as many candidates none holds more than the front of the ordered list. What is
chosen is the shortest front that covers the target and its own fee, so fewer candidates, however
they are picked, hold less than the target and the fee for spending them.
-/

namespace CashWallet

/-! ## The front of a descending list -/

/-- In front of a list whose entries it exceeds, an entry raises each front of the list. -/
theorem sum_take_le_sum_take_cons {a : Nat} {l : List Nat} (ha : ∀ b ∈ l, b ≤ a) (n : Nat) :
    (l.take n).sum ≤ ((a :: l).take n).sum := by
  cases n with
  | zero => exact Nat.le_refl 0
  | succ n =>
      rw [List.take_succ_cons, List.sum_cons, List.take_add_one, List.sum_append]
      have hlast : l[n]?.toList.sum ≤ a := by
        cases hn : l[n]? with
        | none => exact Nat.zero_le a
        | some b => simpa using ha b (List.mem_of_getElem? hn)
      omega

/-- No part of a descending list has a greater sum than the front of the same length. -/
theorem sum_le_sum_take {l part : List Nat} (hl : l.Pairwise fun a b => b ≤ a)
    (hpart : part.Sublist l) : part.sum ≤ (l.take part.length).sum := by
  induction hpart with
  | slnil => exact Nat.le_refl 0
  | @cons part l a hpart ih =>
      obtain ⟨ha, hl⟩ := List.pairwise_cons.1 hl
      exact Nat.le_trans (ih hl) (sum_take_le_sum_take_cons ha part.length)
  | @cons_cons part l a hpart ih =>
      obtain ⟨-, hl⟩ := List.pairwise_cons.1 hl
      rw [List.length_cons, List.take_succ_cons, List.sum_cons, List.sum_cons]
      exact Nat.add_le_add_left (ih hl) a

namespace Selector

variable {s : Selector} {target : UInt64} {candidates : List Unspent} {selection : Selection}

/-- However some of the candidates are picked, the front of the ordered ones that has the same
length holds no less. -/
theorem total_le_total_take {picked : List Unspent} (h : picked.Subperm candidates) :
    (Unspent.total picked).toNat ≤
      (Unspent.total ((byValue candidates).take picked.length)).toNat := by
  obtain ⟨part, hpart, hsublist⟩ := h.trans (byValue_perm candidates).symm.subperm
  have hdescending : ((byValue candidates).map fun u => u.value.toNat).Pairwise
      fun a b => b ≤ a := by
    rw [List.pairwise_map]
    exact (byValue_sorted candidates).imp fun h => UInt64.le_iff_toNat_le.1 h
  have hsum := sum_le_sum_take hdescending (hsublist.map fun u => u.value.toNat)
  rw [List.length_map, hpart.length_eq, ← List.map_take] at hsum
  rw [← Unspent.total_perm hpart, Unspent.toNat_total, Unspent.toNat_total]
  exact Nat.le_min.2 ⟨Nat.le_trans (Nat.min_le_left _ _) hsum, Nat.min_le_right _ _⟩

/-- Shorter fronts of the ordered candidates than the one that was chosen do not cover the target,
the empty one included. -/
theorem not_covers_take (h : s.select candidates target = .ok selection) {n : Nat}
    (hn : n < selection.chosen.length) : ¬ s.Covers target ((byValue candidates).take n) := by
  obtain ⟨back, hordered, -, -, -, hshortest⟩ := select_eq_ok h
  have htarget : target ≠ 0 := by
    rintro rfl
    cases h
  rw [hordered, List.take_append_of_le_length (Nat.le_of_lt hn)]
  have hlength : (selection.chosen.take n).length = n :=
    List.length_take_of_le (Nat.le_of_lt hn)
  by_cases hnil : selection.chosen.take n = []
  · rw [hnil]
    exact not_covers_nil htarget
  · refine hshortest _ (List.take_prefix _ _) hnil ?_
    intro heq
    rw [heq] at hlength
    exact Nat.lt_irrefl _ (hlength ▸ hn)

/-- No payment could be funded by fewer outputs than were chosen: fewer candidates, however they are
picked, hold less than the target and the fee for spending them. -/
theorem select_fewest (h : s.select candidates target = .ok selection) {picked : List Unspent}
    (hpicked : picked.Subperm candidates) (hfewer : picked.length < selection.chosen.length) :
    Unspent.total picked < satAdd target (s.feeFor picked.length) := by
  have hfront := not_covers_take h hfewer
  have hle := total_le_total_take hpicked
  have hlength : ((byValue candidates).take picked.length).length = picked.length := by
    rw [List.length_take, (byValue_perm candidates).length_eq]
    exact Nat.min_eq_left hpicked.length_le
  rw [Covers, hlength, UInt64.not_le] at hfront
  exact UInt64.lt_of_le_of_lt (UInt64.le_iff_toNat_le.2 hle) hfront

/-- One satoshi for each byte of a transaction between key hashes. -/
def frugal : Selector := ⟨1, .payToKeyHash⟩

def coin (value : UInt64) : Unspent :=
  ⟨⟨value, .empty⟩, ⟨.zero, 0⟩⟩

def purse : List Unspent :=
  [coin 700, coin 300, coin 900, coin 800]

theorem byValue_purse : byValue purse = [coin 900, coin 800, coin 700, coin 300] := by
  apply List.Perm.eq_of_pairwise ?_ (byValue_sorted purse) (by decide)
  · exact (byValue_perm purse).trans (by decide)
  · -- no two coins have the same value
    intro a b ha hb hle hge
    have hvalues : ∀ a ∈ purse, ∀ b ∈ [coin 900, coin 800, coin 700, coin 300],
        b.value ≤ a.value → a.value ≤ b.value → a = b := by decide
    exact hvalues a ((byValue_perm purse).mem_iff.1 ha) b hb hle hge

/-- Three coins are needed, so no two of them would do. -/
theorem select_fewest_purse :
    frugal.select purse 1800 = .ok ⟨[coin 900, coin 800, coin 700], 522⟩ ∧
      [coin 900, coin 700].Subperm purse ∧
      Unspent.total [coin 900, coin 700] < satAdd 1800 (frugal.feeFor 2) := by
  have hselect : frugal.select purse 1800 = .ok ⟨[coin 900, coin 800, coin 700], 522⟩ := by
    rw [select, byValue_purse]
    rfl
  have hpicked : [coin 900, coin 700].Subperm purse := by decide
  exact ⟨hselect, hpicked, select_fewest hselect hpicked (by decide)⟩

end Selector

end CashWallet
