/-!
# Clamped arithmetic

Amounts are numbers of 64 bits. Sums and products that leave the range stop at the greatest amount;
each operation is the exact one followed by a clamp.
-/

namespace CashWallet

/-- The greatest number of 64 bits. -/
def maxAmount : Nat := UInt64.size - 1

/-- The amount nearest to a number from below. -/
def clamp (n : Nat) : UInt64 :=
  UInt64.ofNat (min n maxAmount)

def satAdd (a b : UInt64) : UInt64 :=
  clamp (a.toNat + b.toNat)

def satMul (a : UInt64) (n : Nat) : UInt64 :=
  clamp (a.toNat * n)

/-- Add up from the first to the last, clamping each sum. -/
def satSum (amounts : List UInt64) : UInt64 :=
  amounts.foldl satAdd 0

/-- The difference, unless it would be negative. -/
def checkedSub? (a b : UInt64) : Option UInt64 :=
  if b ≤ a then some (a - b) else none

/-- The sum, unless it is out of range. -/
def checkedAdd? (a b : UInt64) : Option UInt64 :=
  if a.toNat + b.toNat ≤ maxAmount then some (a + b) else none

def satSub (a b : UInt64) : UInt64 :=
  if b ≤ a then a - b else 0

@[simp] theorem toNat_clamp (n : Nat) : (clamp n).toNat = min n maxAmount := by
  have h : min n maxAmount < 2 ^ 64 :=
    Nat.lt_of_le_of_lt (Nat.min_le_right _ _) (by decide)
  simpa [clamp] using Nat.mod_eq_of_lt h

theorem toNat_le_maxAmount (a : UInt64) : a.toNat ≤ maxAmount :=
  Nat.le_sub_one_of_lt a.toNat_lt

theorem clamp_toNat (a : UInt64) : clamp a.toNat = a := by
  apply UInt64.toNat_inj.1
  rw [toNat_clamp, Nat.min_eq_left (toNat_le_maxAmount a)]

@[simp] theorem toNat_satAdd (a b : UInt64) :
    (satAdd a b).toNat = min (a.toNat + b.toNat) maxAmount :=
  toNat_clamp _

@[simp] theorem toNat_satMul (a : UInt64) (n : Nat) :
    (satMul a n).toNat = min (a.toNat * n) maxAmount :=
  toNat_clamp _

theorem checkedSub?_eq_some_iff {a b c : UInt64} :
    checkedSub? a b = some c ↔ c.toNat + b.toNat = a.toNat := by
  unfold checkedSub?
  split
  · next h =>
    have hle : b.toNat ≤ a.toNat := UInt64.le_iff_toNat_le.1 h
    have hsub : (a - b).toNat = a.toNat - b.toNat := UInt64.toNat_sub_of_le _ _ h
    rw [Option.some_inj, ← UInt64.toNat_inj, hsub]
    omega
  · next h =>
    have hlt : ¬ b.toNat ≤ a.toNat := fun hle => h (UInt64.le_iff_toNat_le.2 hle)
    simp only [reduceCtorEq, false_iff]
    omega

theorem checkedAdd?_eq_some_iff {a b c : UInt64} :
    checkedAdd? a b = some c ↔ c.toNat = a.toNat + b.toNat := by
  unfold checkedAdd?
  split
  · next h =>
    have hadd : (a + b).toNat = a.toNat + b.toNat := by
      rw [UInt64.toNat_add]
      exact Nat.mod_eq_of_lt (Nat.lt_of_le_of_lt h (by decide))
    rw [Option.some_inj, ← UInt64.toNat_inj, hadd]
    omega
  · next h =>
    have hc := toNat_le_maxAmount c
    simp only [reduceCtorEq, false_iff]
    omega

end CashWallet
