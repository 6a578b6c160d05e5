import CashWallet.Number.Digits
import Mathlib.Data.List.TakeWhile
import Mathlib.Data.Nat.Digits.Lemmas

/-!
# Digits in another base

A number has one list of digits in each base, without a zero at its most significant end. Leading
zeros stand for nothing, so when digits are written in another base they have to be carried over one
by one. Done that way, no digit is lost: writing the digits in the first base again gives them back.
-/

namespace CashWallet.Digits

variable {base fuel n source target d : Nat} {ds : List Nat}

theorem toNat_eq (base : Nat) (ds : List Nat) : toNat base ds = Nat.ofDigits base ds :=
  (Nat.ofDigits_eq_foldr base ds).symm

theorem upTo_eq (hb : 1 < base) (h : n < base.pow fuel) : upTo base fuel n = base.digits n := by
  induction fuel generalizing n with
  | zero =>
      rw [Nat.pow_eq, pow_zero, Nat.lt_one_iff] at h
      rw [upTo, h, Nat.digits_zero]
  | succ fuel ih =>
      by_cases hn : n = 0
      · rw [upTo, if_pos hn, hn, Nat.digits_zero]
      · have hrest : n / base < base.pow fuel := by
          rw [Nat.pow_eq, Nat.div_lt_iff_lt_mul (by omega), ← Nat.pow_succ]
          exact h
        rw [upTo, if_neg hn, ih hrest, Nat.digits_def' hb (Nat.pos_of_ne_zero hn)]

theorem ofNat_eq (hb : 1 < base) (n : Nat) : ofNat base n = base.digits n :=
  upTo_eq hb (lt_pow_log2 hb n)

/-- Digits, most significant first, in another base: those of the same number, behind as many
zeros. -/
def rebase (source target : Nat) (ds : List Nat) : List Nat :=
  ds.takeWhile (· == 0) ++ (ofNat target (toNat source ds.reverse)).reverse

/-- Digits are zeros and then none, or one that is not zero and others behind it. -/
theorem exists_zeros (ds : List Nat) :
    ∃ k rest, ds = List.replicate k 0 ++ rest ∧ rest.head? ≠ some 0 := by
  induction ds with
  | nil => exact ⟨0, [], rfl, nofun⟩
  | cons d ds ih =>
      by_cases hd : d = 0
      · obtain ⟨k, rest, rfl, hrest⟩ := ih
        exact ⟨k + 1, rest, by rw [hd, List.replicate_succ, List.cons_append], hrest⟩
      · exact ⟨0, d :: ds, rfl, by simpa using hd⟩

theorem rebase_zeros (htarget : 1 < target) (k : Nat) {rest : List Nat}
    (hrest : rest.head? ≠ some 0) :
    rebase source target (List.replicate k 0 ++ rest) =
      List.replicate k 0 ++ (target.digits (Nat.ofDigits source rest.reverse)).reverse := by
  have hzeros : (List.replicate k 0 ++ rest).takeWhile (· == 0) = List.replicate k 0 := by
    rw [List.takeWhile_append_of_pos (by simp)]
    cases rest with
    | nil => rw [List.takeWhile_nil, List.append_nil]
    | cons d rest =>
        rw [List.takeWhile_cons_of_neg (by simpa using hrest), List.append_nil]
  have hnumber : toNat source (List.replicate k 0 ++ rest).reverse =
      Nat.ofDigits source rest.reverse := by
    rw [toNat_eq, List.reverse_append, List.reverse_replicate,
      Nat.ofDigits_append_replicate_zero]
  rw [rebase, hzeros, hnumber, ofNat_eq htarget]

theorem head?_reverse_digits (base n : Nat) : (base.digits n).reverse.head? ≠ some 0 := by
  by_cases hn : n = 0
  · rw [hn, Nat.digits_zero]
    nofun
  · rw [List.head?_reverse, List.getLast?_eq_some_getLast (Nat.digits_ne_nil_iff_ne_zero.2 hn), Ne,
      Option.some_inj]
    exact Nat.getLast_digit_ne_zero base hn

/-- Digits that are written in another base and back again are what they were. -/
theorem rebase_rebase (hsource : 1 < source) (htarget : 1 < target) (h : ∀ d ∈ ds, d < source) :
    rebase target source (rebase source target ds) = ds := by
  obtain ⟨k, rest, rfl, hrest⟩ := exists_zeros ds
  have hdigits : source.digits (Nat.ofDigits source rest.reverse) = rest.reverse := by
    apply Nat.digits_ofDigits source hsource
    · intro d hd
      exact h d (List.mem_append_right _ (List.mem_reverse.1 hd))
    · intro hne hlast
      rw [List.getLast_reverse] at hlast
      apply hrest
      rw [List.head?_eq_some_head (by simpa using hne), hlast]
  rw [rebase_zeros htarget k hrest, rebase_zeros hsource k (head?_reverse_digits _ _),
    List.reverse_reverse, Nat.ofDigits_digits, hdigits, List.reverse_reverse]

theorem lt_of_mem_rebase (htarget : 1 < target) (h : d ∈ rebase source target ds) : d < target := by
  rcases List.mem_append.1 h with hzero | hdigit
  · have hd : d = 0 := by simpa using List.mem_takeWhile_imp hzero
    omega
  · rw [ofNat_eq htarget, List.mem_reverse] at hdigit
    exact Nat.digits_lt_base htarget hdigit

end CashWallet.Digits
