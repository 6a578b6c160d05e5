import CashWallet.Proofs.Number.Saturating
import CashWallet.Transaction.Selection

/-!
# Fees and totals without clamps

An estimate clamps each product and each sum on its way, a fee is clamped once more, and a total is
clamped with each output. None of this loses more than one clamp of the exact number at the end, so
none of them falls where a number that goes into it rises, and totals do not depend on the order.
-/

namespace CashWallet

namespace SizeModel

variable {m m' : SizeModel} {rate rate' : UInt64} {inputs inputs' outputs outputs' : Nat}

/-- The estimated size as an exact number. -/
def size (m : SizeModel) (inputs outputs : Nat) : Nat :=
  m.base.toNat + m.perInput.toNat * inputs + m.perOutput.toNat * outputs

theorem estimate_eq (m : SizeModel) (inputs outputs : Nat) :
    m.estimate inputs outputs = clamp (m.size inputs outputs) := by
  calc m.estimate inputs outputs
      = satAdd (satAdd (clamp m.base.toNat) (clamp (m.perInput.toNat * inputs)))
          (clamp (m.perOutput.toNat * outputs)) := by
        rw [clamp_toNat]
        rfl
    _ = clamp (m.size inputs outputs) := by rw [satAdd_clamp, satAdd_clamp, size]

theorem fee_eq (m : SizeModel) (rate : UInt64) (inputs outputs : Nat) :
    m.fee rate inputs outputs = clamp (rate.toNat * m.size inputs outputs) := by
  rw [fee, estimate_eq, satMul_clamp]

theorem toNat_estimate (m : SizeModel) (inputs outputs : Nat) :
    (m.estimate inputs outputs).toNat = min (m.size inputs outputs) maxAmount := by
  rw [estimate_eq, toNat_clamp]

theorem toNat_fee (m : SizeModel) (rate : UInt64) (inputs outputs : Nat) :
    (m.fee rate inputs outputs).toNat = min (rate.toNat * m.size inputs outputs) maxAmount := by
  rw [fee_eq, toNat_clamp]

/-! ## Greater numbers -/

/-- No part of a size counts for more in the first model than in the second. -/
structure AtMost (m m' : SizeModel) : Prop where
  base : m.base ≤ m'.base
  perInput : m.perInput ≤ m'.perInput
  perOutput : m.perOutput ≤ m'.perOutput

theorem AtMost.refl (m : SizeModel) : m.AtMost m :=
  ⟨UInt64.le_refl _, UInt64.le_refl _, UInt64.le_refl _⟩

theorem size_mono (h : m.AtMost m') (hinputs : inputs ≤ inputs') (houtputs : outputs ≤ outputs') :
    m.size inputs outputs ≤ m'.size inputs' outputs' := by
  have hbase := UInt64.le_iff_toNat_le.1 h.base
  have hperInput := Nat.mul_le_mul (UInt64.le_iff_toNat_le.1 h.perInput) hinputs
  have hperOutput := Nat.mul_le_mul (UInt64.le_iff_toNat_le.1 h.perOutput) houtputs
  exact Nat.add_le_add (Nat.add_le_add hbase hperInput) hperOutput

theorem estimate_mono (h : m.AtMost m') (hinputs : inputs ≤ inputs')
    (houtputs : outputs ≤ outputs') : m.estimate inputs outputs ≤ m'.estimate inputs' outputs' := by
  rw [estimate_eq, estimate_eq]
  exact clamp_mono (size_mono h hinputs houtputs)

theorem fee_mono (h : m.AtMost m') (hrate : rate ≤ rate') (hinputs : inputs ≤ inputs')
    (houtputs : outputs ≤ outputs') :
    m.fee rate inputs outputs ≤ m'.fee rate' inputs' outputs' := by
  have hsize := size_mono h hinputs houtputs
  rw [fee_eq, fee_eq]
  exact clamp_mono (Nat.mul_le_mul (UInt64.le_iff_toNat_le.1 hrate) hsize)

end SizeModel

namespace Unspent

theorem toNat_total (us : List Unspent) :
    (total us).toNat = min (us.map fun u => u.value.toNat).sum maxAmount := by
  rw [total, toNat_satSum, List.map_map]
  rfl

/-- Clamped totals do not depend on the order. -/
theorem total_perm {us us' : List Unspent} (h : us.Perm us') : total us = total us' := by
  apply UInt64.toNat_inj.1
  rw [toNat_total, toNat_total, (h.map fun u => u.value.toNat).sum_eq]

end Unspent

namespace SizeModel

/-- Whatever is clamped on the way, estimates and fees are the exact numbers, clamped once, and rise
with each number that goes into them; sums over amounts and totals of selections are the exact sums,
clamped once, in whatever order they are added up. -/
theorem fee_clampedOnce (m : SizeModel) (rate : UInt64) (inputs outputs : Nat) :
    (m.estimate inputs outputs).toNat =
      min (m.base.toNat + m.perInput.toNat * inputs + m.perOutput.toNat * outputs) maxAmount ∧
    (m.fee rate inputs outputs).toNat =
      min (rate.toNat *
        (m.base.toNat + m.perInput.toNat * inputs + m.perOutput.toNat * outputs)) maxAmount ∧
    (∀ m' rate' inputs' outputs', m.AtMost m' → inputs ≤ inputs' → outputs ≤ outputs' →
      m.estimate inputs outputs ≤ m'.estimate inputs' outputs' ∧
        (rate ≤ rate' → m.fee rate inputs outputs ≤ m'.fee rate' inputs' outputs')) ∧
    (∀ (start : UInt64) (amounts amounts' : List UInt64), amounts.Perm amounts' →
      (amounts'.foldl satAdd start).toNat =
        min (start.toNat + (amounts.map UInt64.toNat).sum) maxAmount) ∧
    ∀ (selection : Selection) (us : List Unspent), us.Perm selection.chosen →
      selection.total.toNat = min (us.map fun u => u.value.toNat).sum maxAmount := by
  refine ⟨m.toNat_estimate inputs outputs, m.toNat_fee rate inputs outputs, ?_, ?_, ?_⟩
  · intro m' rate' inputs' outputs' h hinputs houtputs
    exact ⟨estimate_mono h hinputs houtputs, fun hrate => fee_mono h hrate hinputs houtputs⟩
  · intro start amounts amounts' h
    exact toNat_foldl_satAdd_of_perm h start
  · intro selection us h
    rw [Selection.total, ← Unspent.total_perm h, Unspent.toNat_total]

/-- Everything counts for as much as possible. -/
def heaviest : SizeModel :=
  ⟨0xffffffffffffffff, 0xffffffffffffffff, 0xffffffffffffffff⟩

/-- The greatest size, out of range by far, comes free at the rate zero and is clamped again at any
other rate; an amount that is added after a clamp is lost wherever it stands. -/
theorem fee_clampedOnce_heaviest :
    ((heaviest.estimate 1 2).toNat = maxAmount ∧ (heaviest.fee 0 1 2).toNat = 0 ∧
      (heaviest.fee 1 1 2).toNat = maxAmount) ∧
    (standard.AtMost heaviest ∧ 0 ≤ 1 ∧ 2 ≤ 2 ∧ standard.estimate 0 2 ≤ heaviest.estimate 1 2 ∧
      (1 : UInt64) ≤ 2 ∧ standard.fee 1 0 2 ≤ heaviest.fee 2 1 2) ∧
    ([5, 0xffffffffffffffff].Perm [0xffffffffffffffff, (5 : UInt64)] ∧
      ([0xffffffffffffffff, 5].foldl satAdd 0).toNat = maxAmount) ∧
    ∃ selection : Selection, ∃ us : List Unspent, us ≠ selection.chosen ∧
      us.Perm selection.chosen ∧ selection.total.toNat = maxAmount := by
  have hheaviest := fee_clampedOnce heaviest
  obtain ⟨-, -, hmono, hsums, htotals⟩ := fee_clampedOnce standard 1 0 2
  have hless : standard.AtMost heaviest := ⟨by decide, by decide, by decide⟩
  have hgreater := hmono heaviest 2 1 2 hless (by decide) (by decide)
  have hswap : [5, 0xffffffffffffffff].Perm [0xffffffffffffffff, (5 : UInt64)] := by decide
  let coins : List Unspent :=
    [⟨⟨5, .empty⟩, ⟨.zero, 0⟩⟩, ⟨⟨0xffffffffffffffff, .empty⟩, ⟨.zero, 1⟩⟩]
  have hcoins : coins.Perm coins.reverse := (List.reverse_perm coins).symm
  refine ⟨⟨(hheaviest 0 1 2).1, (hheaviest 0 1 2).2.1, (hheaviest 1 1 2).2.1⟩,
    ⟨hless, by decide, by decide, hgreater.1, by decide, hgreater.2 (by decide)⟩,
    ⟨hswap, hsums 0 _ _ hswap⟩, ⟨coins.reverse, 0⟩, coins, by decide, hcoins, ?_⟩
  exact htotals ⟨coins.reverse, 0⟩ coins hcoins

end SizeModel

end CashWallet
