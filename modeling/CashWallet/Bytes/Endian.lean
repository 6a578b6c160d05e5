import CashWallet.Bytes.Hex

/-!
# Little-endian numbers

A number as a fixed count of bytes, least significant byte first, and back; the big-endian form is
its reverse.
-/

namespace CashWallet.Endian

/-- The lowest `width` bytes of `n`, least significant first. -/
def toLittle : Nat → Nat → Bytes
  | 0, _ => []
  | width + 1, n => UInt8.ofNat n :: toLittle width (n / 256)

def ofLittle : Bytes → Nat
  | [] => 0
  | b :: rest => b.toNat + 256 * ofLittle rest

def toBig (width n : Nat) : Bytes :=
  (toLittle width n).reverse

def ofBig (bs : Bytes) : Nat :=
  bs.foldl (fun acc b => 256 * acc + b.toNat) 0

@[simp] theorem length_toLittle (width n : Nat) : (toLittle width n).length = width := by
  induction width generalizing n with
  | zero => rfl
  | succ width ih => simp [toLittle, ih]

@[simp] theorem length_toBig (width n : Nat) : (toBig width n).length = width := by
  simp [toBig]

/-- Reading what was written gives the number modulo the width. -/
theorem ofLittle_toLittle (width n : Nat) :
    ofLittle (toLittle width n) = n % Nat.pow 256 width := by
  induction width generalizing n with
  | zero => simp [toLittle, ofLittle, Nat.mod_one]
  | succ width ih =>
    have low : (UInt8.ofNat n).toNat = n % 256 := rfl
    simp only [Nat.pow_eq] at ih ⊢
    rw [toLittle, ofLittle, ih, low, Nat.pow_succ', Nat.mod_mul]

/-- Each string of bytes is the only one of its length for its number. -/
theorem toLittle_ofLittle {width : Nat} {bs : Bytes} (h : bs.length = width) :
    toLittle width (ofLittle bs) = bs := by
  induction bs generalizing width with
  | nil =>
    subst h
    rfl
  | cons b bs ih =>
    subst h
    have low : UInt8.ofNat (b.toNat + 256 * ofLittle bs) = b := by
      rw [← UInt8.toNat_inj, UInt8.toNat_ofNat', Nat.add_mul_mod_self_left,
        Nat.mod_eq_of_lt b.toNat_lt]
    have high : (b.toNat + 256 * ofLittle bs) / 256 = ofLittle bs := by
      rw [Nat.add_mul_div_left _ _ (by decide), Nat.div_eq_of_lt b.toNat_lt, Nat.zero_add]
    rw [List.length_cons, toLittle, ofLittle, low, high, ih rfl]

theorem ofBig_append (bs : Bytes) (b : UInt8) : ofBig (bs ++ [b]) = 256 * ofBig bs + b.toNat := by
  simp [ofBig, List.foldl_append]

theorem ofBig_reverse (bs : Bytes) : ofBig bs.reverse = ofLittle bs := by
  induction bs with
  | nil => rfl
  | cons b bs ih =>
    rw [List.reverse_cons, ofBig_append, ih, ofLittle]
    omega

theorem ofBig_toBig {width n : Nat} (h : n < Nat.pow 256 width) : ofBig (toBig width n) = n := by
  rw [toBig, ofBig_reverse, ofLittle_toLittle, Nat.mod_eq_of_lt h]

theorem toBig_ofBig {width : Nat} {bs : Bytes} (h : bs.length = width) :
    toBig width (ofBig bs) = bs := by
  have hreverse : ofBig bs = ofLittle bs.reverse := by rw [← ofBig_reverse, List.reverse_reverse]
  rw [toBig, hreverse, toLittle_ofLittle (by rw [List.length_reverse, h]), List.reverse_reverse]

end CashWallet.Endian
