import CashWallet.Number.Saturating
import Mathlib.Algebra.BigOperators.Group.List.Basic
import Mathlib.Algebra.Order.Ring.Nat

/-!
# One clamp at the end

Numbers that are clamped before they are added or multiplied give the same as exact ones, once the
result is clamped. So sums over lists, in any order, and whatever else is made of clamped sums and
products, come to the exact number, clamped once.
-/

namespace CashWallet

theorem clamp_mono {m n : Nat} (h : m ≤ n) : clamp m ≤ clamp n := by
  rw [UInt64.le_iff_toNat_le, toNat_clamp, toNat_clamp]
  exact min_le_min_right maxAmount h

theorem satAdd_clamp (m n : Nat) : satAdd (clamp m) (clamp n) = clamp (m + n) := by
  apply UInt64.toNat_inj.1
  rw [toNat_satAdd, toNat_clamp, toNat_clamp, toNat_clamp]
  omega

/-- A clamped number is out of range only where its product is clamped as well, or zero. -/
theorem satMul_clamp (a : UInt64) (n : Nat) : satMul a (clamp n).toNat = clamp (a.toNat * n) := by
  apply UInt64.toNat_inj.1
  rw [toNat_satMul, toNat_clamp, toNat_clamp]
  rcases Nat.le_total n maxAmount with hn | hn
  · rw [Nat.min_eq_left hn]
  rcases Nat.eq_zero_or_pos a.toNat with ha | ha
  · rw [ha, Nat.zero_mul, Nat.zero_mul]
  · have hclamped : maxAmount ≤ a.toNat * maxAmount := Nat.le_mul_of_pos_left _ ha
    have hexact : a.toNat * maxAmount ≤ a.toNat * n := Nat.mul_le_mul_left _ hn
    rw [Nat.min_eq_right hn]
    omega

theorem toNat_foldl_satAdd (start : UInt64) (amounts : List UInt64) :
    (amounts.foldl satAdd start).toNat =
      min (start.toNat + (amounts.map UInt64.toNat).sum) maxAmount := by
  induction amounts generalizing start with
  | nil => simp [Nat.min_eq_left (toNat_le_maxAmount start)]
  | cons a amounts ih =>
      rw [List.foldl_cons, ih, toNat_satAdd, List.map_cons, List.sum_cons]
      omega

/-- Clamping each sum on the way is the same as clamping the exact total once, in any order. -/
theorem toNat_foldl_satAdd_of_perm {amounts amounts' : List UInt64} (h : amounts.Perm amounts')
    (start : UInt64) :
    (amounts'.foldl satAdd start).toNat =
      min (start.toNat + (amounts.map UInt64.toNat).sum) maxAmount := by
  rw [toNat_foldl_satAdd, (h.map UInt64.toNat).sum_eq]

theorem toNat_satSum (amounts : List UInt64) :
    (satSum amounts).toNat = min (amounts.map UInt64.toNat).sum maxAmount := by
  simpa [satSum] using toNat_foldl_satAdd 0 amounts

end CashWallet
