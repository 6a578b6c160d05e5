/-!
# Positional digits

The digits of a natural number in any base, least significant first, and the number they stand for.
Zero has no digits.
-/

namespace CashWallet.Digits

/-- At most `fuel` digits of `n`. -/
def upTo (base : Nat) : Nat → Nat → List Nat
  | 0, _ => []
  | fuel + 1, n => if n = 0 then [] else n % base :: upTo base fuel (n / base)

/-- The digits of `n`, least significant first; a number has no more digits in any base than bits. -/
def ofNat (base n : Nat) : List Nat :=
  upTo base (n.log2 + 1) n

def toNat (base : Nat) (ds : List Nat) : Nat :=
  ds.foldr (fun d acc => d + base * acc) 0

theorem toNat_upTo {base fuel n : Nat} (h : n < base.pow fuel) :
    toNat base (upTo base fuel n) = n := by
  induction fuel generalizing n with
  | zero => simp_all [upTo, toNat]
  | succ fuel ih =>
    by_cases h0 : n = 0
    · simp [upTo, toNat, h0]
    · have hb : 0 < base := by
        rcases base with _ | b
        · simp at h
        · omega
      have hlt : n / base < base ^ fuel := by
        rw [Nat.div_lt_iff_lt_mul hb, ← Nat.pow_succ]; exact h
      have hrec := ih hlt
      simp only [toNat] at hrec ⊢
      simp only [upTo, if_neg h0, List.foldr_cons, hrec]
      exact Nat.mod_add_div n base

/-- There are enough digits for the whole number. -/
theorem lt_pow_log2 {base : Nat} (hb : 2 ≤ base) (n : Nat) : n < base.pow (n.log2 + 1) :=
  Nat.lt_of_lt_of_le Nat.lt_log2_self (Nat.pow_le_pow_left hb _)

theorem toNat_ofNat {base : Nat} (hb : 2 ≤ base) (n : Nat) : toNat base (ofNat base n) = n :=
  toNat_upTo (lt_pow_log2 hb n)

theorem lt_of_mem_upTo {base fuel n d : Nat} (hb : 0 < base) (h : d ∈ upTo base fuel n) :
    d < base := by
  induction fuel generalizing n with
  | zero => cases h
  | succ fuel ih =>
    rw [upTo] at h
    split at h
    · cases h
    · rcases List.mem_cons.1 h with rfl | h
      · exact Nat.mod_lt n hb
      · exact ih h

/-- A number has no more digits than the power of the base tells that it is below. -/
theorem length_upTo_le {base fuel n width : Nat} (hb : 0 < base) (h : n < base.pow width) :
    (upTo base fuel n).length ≤ width := by
  induction fuel generalizing n width with
  | zero => exact Nat.zero_le width
  | succ fuel ih =>
    rw [upTo]
    split
    · exact Nat.zero_le width
    · next hn =>
      cases width with
      | zero =>
        rw [Nat.pow_eq, Nat.pow_zero] at h
        omega
      | succ width =>
        rw [Nat.pow_eq, Nat.pow_succ, ← Nat.div_lt_iff_lt_mul hb, ← Nat.pow_eq] at h
        exact Nat.succ_le_succ (ih h)

/-- The most significant digit is not zero. -/
theorem getLast?_upTo {base fuel n : Nat} (h : n < base.pow fuel) (hn : n ≠ 0) :
    ∃ d, (upTo base fuel n).getLast? = some d ∧ d ≠ 0 := by
  induction fuel generalizing n with
  | zero =>
    rw [Nat.pow_eq, Nat.pow_zero] at h
    omega
  | succ fuel ih =>
    have hb : 0 < base := by
      rcases base with _ | b
      · simp at h
      · omega
    have hlt : n / base < base.pow fuel := by
      rw [Nat.pow_eq, Nat.div_lt_iff_lt_mul hb, ← Nat.pow_succ]
      exact h
    rw [upTo, if_neg hn]
    by_cases hrest : n / base = 0
    · refine ⟨n % base, ?_, ?_⟩
      · rw [hrest]
        cases fuel <;> rfl
      · rw [Nat.mod_eq_of_lt ((Nat.div_eq_zero_iff_lt hb).1 hrest)]
        exact hn
    · obtain ⟨d, hd, hne⟩ := ih hlt hrest
      exact ⟨d, by rw [List.getLast?_cons, hd, Option.getD_some], hne⟩

end CashWallet.Digits
