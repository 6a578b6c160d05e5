/-!
# Arithmetic modulo a number

Powers by repeated squaring, and inverses modulo a prime by Fermat's theorem.
-/

namespace CashWallet.Modular

/-- The power `b ^ e` modulo `m`, for an exponent below `2 ^ bits`. -/
def powUpTo (m : Nat) : Nat → Nat → Nat → Nat
  | 0, _, _ => 1 % m
  | bits + 1, b, e =>
    let r := powUpTo m bits (b * b % m) (e / 2)
    if e % 2 = 1 then b * r % m else r

def pow (m b e : Nat) : Nat :=
  powUpTo m (e.log2 + 1) b e

/-- The inverse of `a` modulo a prime `m` that does not divide it. -/
def inverse (m a : Nat) : Nat :=
  pow m a (m - 2)

/-- The difference modulo `m` of two numbers, the second below `m`. -/
def sub (m a b : Nat) : Nat :=
  (a + (m - b)) % m

/-- The right-to-left method gives the power, as long as the exponent has few enough bits. -/
theorem powUpTo_eq {m bits b e : Nat} (h : e < Nat.pow 2 bits) :
    powUpTo m bits b e = b.pow e % m := by
  simp only [Nat.pow_eq] at h ⊢
  induction bits generalizing b e with
  | zero =>
    have : e = 0 := by omega
    simp [powUpTo, this]
  | succ bits ih =>
    have hlt : e / 2 < 2 ^ bits := by rw [Nat.pow_succ] at h; omega
    have hsq : (b * b % m) ^ (e / 2) % m = b ^ (2 * (e / 2)) % m := by
      rw [← Nat.pow_mod, Nat.pow_mul, Nat.pow_two]
    simp only [powUpTo, ih hlt, hsq]
    split
    · next hodd =>
      rw [Nat.mul_mod_mod, ← Nat.pow_succ']
      congr 2
      omega
    · next heven =>
      congr 2
      omega

theorem pow_eq (m b e : Nat) : pow m b e = b.pow e % m :=
  powUpTo_eq Nat.lt_log2_self

end CashWallet.Modular
