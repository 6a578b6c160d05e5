import CashWallet.Number.Decimal
import Mathlib.Algebra.Order.Floor.Semifield
import Mathlib.Data.Rat.Floor

/-!
# Decimals in smaller units

A decimal stands for a rational number. Counted in a unit that is some places smaller, its integer
part is taken exactly, as long as it is within the limit. The two shortcuts that spare a power of
ten are taken only where the outcome is known: a number times a great power is beyond the limit, a
number divided by a great power has no integer part.
-/

namespace CashWallet.Decimal

variable {d : Decimal} {places limit m : Nat}

/-- The number that a decimal stands for. -/
def value (d : Decimal) : ℚ :=
  d.coefficient * 10 ^ (-d.scale)

theorem value_nonneg_iff : 0 ≤ d.value ↔ 0 ≤ d.coefficient := by
  have hpower : (0 : ℚ) < 10 ^ (-d.scale) := zpow_pos (by norm_num) _
  rw [value, mul_nonneg_iff_of_pos_right hpower, Int.cast_nonneg_iff]

theorem value_mul_pow (d : Decimal) (places : Nat) :
    d.value * 10 ^ places = d.coefficient * 10 ^ ((places : Int) - d.scale) := by
  have hten : (10 : ℚ) ≠ 0 := by norm_num
  rw [value, ← zpow_natCast, mul_assoc, ← zpow_add₀ hten, neg_add_eq_sub]

/-- Multiplied, a natural number is its own integer part. -/
theorem floor_mul_pow (n : Nat) {shift : Int} (h : 0 ≤ shift) :
    ⌊(n : ℚ) * 10 ^ shift⌋ = (n * Nat.pow 10 shift.toNat : Nat) := by
  obtain ⟨k, rfl⟩ := Int.eq_ofNat_of_zero_le h
  have hcast : (n : ℚ) * 10 ^ k = (n * Nat.pow 10 k : Nat) := by
    rw [Nat.cast_mul]
    exact congrArg _ (Nat.cast_pow 10 k).symm
  rw [Int.toNat_natCast, zpow_natCast, hcast, Int.floor_natCast]

/-- Divided, a natural number has the quotient as its integer part. -/
theorem floor_mul_pow_neg (n : Nat) {shift : Int} (h : shift < 0) :
    ⌊(n : ℚ) * 10 ^ shift⌋ = (n / Nat.pow 10 (-shift).toNat : Nat) := by
  obtain ⟨k, hk⟩ := Int.eq_ofNat_of_zero_le (Int.le_of_lt (Int.neg_pos_of_neg h))
  have hcast : (n : ℚ) * 10 ^ shift = (n : ℚ) / (Nat.pow 10 k : Nat) := by
    rw [← neg_neg shift, hk, zpow_neg, zpow_natCast, ← div_eq_mul_inv]
    exact congrArg _ (Nat.cast_pow 10 k).symm
  rw [hcast, hk, Int.toNat_natCast, Rat.floor_natCast_div_natCast, Int.natCast_ediv]

/-- A number is below the power of ten that its binary length tells. -/
theorem lt_pow_of_log2_lt {n k : Nat} (h : n.log2 < k) : n < Nat.pow 10 k :=
  calc n < 2 ^ (n.log2 + 1) := Nat.lt_log2_self
    _ ≤ 2 ^ k := Nat.pow_le_pow_right (by decide) h
    _ ≤ 10 ^ k := Nat.pow_le_pow_left (by decide) k

theorem within_eq_some_iff {n : Nat} :
    (if n ≤ limit then some n else none) = some m ↔ (n : Int) = m ∧ m ≤ limit := by
  rw [Int.natCast_inj]
  split
  · next h =>
      rw [Option.some_inj]
      constructor
      · rintro rfl
        exact ⟨rfl, h⟩
      · exact And.left
  · next h =>
      constructor
      · rintro ⟨⟩
      · rintro ⟨rfl, hm⟩
        exact absurd hm h

/-- The integer part in the smaller unit, unless it is beyond the limit. -/
theorem floorScaled?_eq_some_iff (hd : 0 ≤ d.coefficient) :
    d.floorScaled? places limit = some m ↔ ⌊d.value * 10 ^ places⌋ = m ∧ m ≤ limit := by
  obtain ⟨n, hn⟩ := Int.eq_ofNat_of_zero_le hd
  have hshifted := value_mul_pow d places
  rw [hn, Int.cast_natCast] at hshifted
  rw [hshifted, floorScaled?, hn, Int.toNat_natCast]
  generalize (places : Int) - d.scale = shift
  dsimp only
  split
  · next hzero =>
      have hzeroPart : ⌊(n : ℚ) * 10 ^ shift⌋ = (0 : Nat) := by
        rw [hzero, Nat.cast_zero, zero_mul, Int.floor_zero, Nat.cast_zero]
      rw [hzeroPart, ← within_eq_some_iff, if_pos (Nat.zero_le limit)]
  · next hfilled =>
      split
      · next hshift =>
          rw [floor_mul_pow n hshift, ← within_eq_some_iff]
          split
          · next hgreat =>
              -- the power of ten alone is beyond the limit
              have hpower := lt_pow_of_log2_lt (n := limit) (k := shift.toNat) (by omega)
              have hbeyond : ¬ n * Nat.pow 10 shift.toNat ≤ limit := by
                have hle := Nat.le_mul_of_pos_left (Nat.pow 10 shift.toNat)
                  (Nat.pos_of_ne_zero hfilled)
                omega
              rw [if_neg hbeyond]
          · rfl
      · next hshift =>
          rw [floor_mul_pow_neg n (Int.not_le.1 hshift), ← within_eq_some_iff]
          split
          · next hsmall =>
              have hquotient : n / Nat.pow 10 (-shift).toNat = 0 :=
                Nat.div_eq_of_lt (lt_pow_of_log2_lt (by omega))
              rw [hquotient, if_pos (Nat.zero_le limit)]
          · rfl

end CashWallet.Decimal
