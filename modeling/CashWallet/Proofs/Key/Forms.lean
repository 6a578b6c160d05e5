import CashWallet.Key.Public
import CashWallet.Proofs.Curve.Group

/-!
# The written forms of a public key

The square of an ordinate has two roots, the ordinate and its opposite, and as the modulus is odd
one of them is odd. So the abscissa and a parity tell the point, and a key in either form is read
back as itself. The other way round a key that is read is written again as it was, except that one
of the two tags for an even ordinate becomes the other.
-/

namespace CashWallet

namespace Curve

theorem lt_width {n : Nat} (h : n < fieldPrime) : n < Nat.pow 256 32 :=
  Nat.lt_trans h (by decide)

/-- The power that yields a root of a square. -/
theorem root_sq (y : ZMod fieldPrime) : ((y ^ 2) ^ ((fieldPrime + 1) / 4)) ^ 2 = y ^ 2 := by
  have hexponent : 2 * ((fieldPrime + 1) / 4 * 2) = fieldPrime + 1 := by decide
  calc ((y ^ 2) ^ ((fieldPrime + 1) / 4)) ^ 2 = y ^ (fieldPrime + 1) := by
        rw [← pow_mul, ← pow_mul, hexponent]
    _ = y ^ 2 := by rw [pow_succ, ZMod.pow_card, sq]

/-- No point has the ordinate zero, because `-7` is not a cube. -/
theorem cubic_ne_zero (x : Nat) : cubic x ≠ 0 := by
  intro h
  have hcube : (x : ZMod fieldPrime) ^ 3 = -7 := by
    have hzero := (ZMod.natCast_eq_zero_iff _ fieldPrime).2 (Nat.dvd_of_mod_eq_zero h)
    push_cast at hzero
    linear_combination hzero
  have hx : (x : ZMod fieldPrime) ≠ 0 := by
    intro hx
    have hseven : (7 : ZMod fieldPrime) ≠ 0 := cast_ne_zero (n := 7) (by decide) (by decide)
    apply hseven
    linear_combination hcube - hx * (x : ZMod fieldPrime) ^ 2
  have hthird : 3 * ((fieldPrime - 1) / 3) = fieldPrime - 1 := by decide
  have hone : (-7 : ZMod fieldPrime) ^ ((fieldPrime - 1) / 3) = 1 := by
    rw [← hcube, ← pow_mul, hthird, ZMod.pow_card_sub_one_eq_one hx]
  have hother : Modular.pow fieldPrime (fieldPrime - 7) ((fieldPrime - 1) / 3) ≠ 1 := by
    decide +kernel
  apply hother
  have hlt : Modular.pow fieldPrime (fieldPrime - 7) ((fieldPrime - 1) / 3) < fieldPrime := by
    rw [Modular.pow_eq]
    exact Nat.mod_lt _ fieldPrime_pos
  have hnegative : ((fieldPrime - 7 : Nat) : ZMod fieldPrime) = -7 := by
    rw [Nat.cast_sub (by decide), ZMod.natCast_self, zero_sub, Nat.cast_ofNat]
  rw [← Modular.cast_inj hlt (by decide), Modular.cast_pow, hnegative, hone, Nat.cast_one]

namespace Affine

variable {p : Affine}

theorem root_cases (h : p.isOnCurve = true) :
    let root := Modular.pow fieldPrime (cubic p.x) ((fieldPrime + 1) / 4)
    root < fieldPrime ∧ root * root % fieldPrime = cubic p.x ∧
      (root = p.y ∨ root + p.y = fieldPrime) := by
  intro root
  obtain ⟨-, hy, hcurve⟩ := isOnCurve_iff.1 h
  have hcubic : (cubic p.x : ZMod fieldPrime) = (p.y : ZMod fieldPrime) ^ 2 := by
    rw [nonsingular_iff.1 hcurve, cubic, ZMod.natCast_mod]
    push_cast
    ring
  have hsq : (root : ZMod fieldPrime) ^ 2 = (p.y : ZMod fieldPrime) ^ 2 := by
    rw [Modular.cast_pow, hcubic, root_sq]
  have hroot : root < fieldPrime := by
    rw [show root = _ from Modular.pow_eq _ _ _]
    exact Nat.mod_lt _ fieldPrime_pos
  refine ⟨hroot, ?_, ?_⟩
  · have hlt : cubic p.x < fieldPrime := Nat.mod_lt _ fieldPrime_pos
    rw [← Modular.cast_inj (Nat.mod_lt _ fieldPrime_pos) hlt, ZMod.natCast_mod, Nat.cast_mul, ← sq,
      hsq, hcubic]
  · rcases sq_eq_sq_iff_eq_or_eq_neg.1 hsq with heq | hneg
    · exact Or.inl ((Modular.cast_inj hroot hy).1 heq)
    · have hsum : ((root + p.y : Nat) : ZMod fieldPrime) = 0 := by
        rw [Nat.cast_add, hneg, neg_add_cancel]
      obtain ⟨c, hc⟩ := (ZMod.natCast_eq_zero_iff _ _).1 hsum
      have hc2 : c < 2 := by
        refine Nat.lt_of_mul_lt_mul_left (a := fieldPrime) ?_
        omega
      interval_cases c
      · exact Or.inl (by omega)
      · exact Or.inr (by omega)

/-- The abscissa and the parity of the ordinate tell the point. -/
theorem ofX?_of_isOnCurve (h : p.isOnCurve = true) : ofX? p.x (p.y % 2 == 1) = some p := by
  obtain ⟨hx, hy, -⟩ := isOnCurve_iff.1 h
  obtain ⟨hroot, hsq, hcases⟩ := root_cases h
  have hodd : fieldPrime % 2 = 1 := by decide
  rw [ofX?, if_pos hx]
  dsimp only
  rw [if_pos hsq]
  generalize Modular.pow fieldPrime (cubic p.x) ((fieldPrime + 1) / 4) = root at hroot hcases ⊢
  have hordinate : (if (root % 2 == 1) == (p.y % 2 == 1) then root
      else (fieldPrime - root) % fieldPrime) = p.y := by
    rcases hcases with rfl | hsum
    · rw [if_pos (beq_self_eq_true _)]
    · have hparity : ¬ ((root % 2 == 1) == (p.y % 2 == 1)) = true := by
        intro hsame
        have hiff : root % 2 = 1 ↔ p.y % 2 = 1 := by
          rw [← beq_iff_eq (a := root % 2), beq_iff_eq.1 hsame, beq_iff_eq]
        omega
      have hother : fieldPrime - root = p.y := by omega
      rw [if_neg hparity, hother, Nat.mod_eq_of_lt hy]
  rw [hordinate]

/-- The point that is found has the abscissa and the parity that are asked for. -/
theorem ofX?_eq_some {x : Nat} {odd : Bool} {p : Affine} (h : ofX? x odd = some p) :
    p.x = x ∧ (p.y % 2 == 1) = odd := by
  unfold ofX? at h
  split at h
  · dsimp only at h
    split at h
    · next hsq =>
        cases h
        refine ⟨rfl, ?_⟩
        have hroot : Modular.pow fieldPrime (cubic x) ((fieldPrime + 1) / 4) < fieldPrime := by
          rw [Modular.pow_eq]
          exact Nat.mod_lt _ fieldPrime_pos
        generalize Modular.pow fieldPrime (cubic x) ((fieldPrime + 1) / 4) = root at hsq hroot ⊢
        have hpos : root ≠ 0 := by
          rintro rfl
          exact cubic_ne_zero x hsq.symm
        have hmodulus : fieldPrime % 2 = 1 := by decide
        dsimp only
        split
        · next hparity => exact beq_iff_eq.1 hparity
        · next hparity =>
            have hother : (fieldPrime - root) % fieldPrime = fieldPrime - root :=
              Nat.mod_eq_of_lt (by omega)
            rw [hother]
            cases odd with
            | true =>
                have heven : root % 2 ≠ 1 := by simpa using hparity
                rw [beq_iff_eq]
                omega
            | false =>
                have hodd : root % 2 = 1 := by simpa using hparity
                rw [beq_eq_false_iff_ne]
                omega
    · cases h
  · cases h

end Affine

end Curve

open Curve

namespace PublicKey

variable {key : PublicKey} {bs : Bytes}

theorem pointOf?_compressed (h : key.point.isOnCurve = true) :
    pointOf? (if key.point.y % 2 = 1 then 3 else 2) (Endian.toBig 32 key.point.x) =
      some key.point := by
  have hx := (Affine.isOnCurve_iff.1 h).1
  have hpoint := Affine.ofX?_of_isOnCurve h
  rw [pointOf?, if_pos (Endian.length_toBig _ _), Endian.ofBig_toBig (lt_width hx)]
  by_cases hodd : key.point.y % 2 = 1
  · rw [hodd] at hpoint
    simpa [hodd] using hpoint
  · have heven : (key.point.y % 2 == 1) = false := by simpa using hodd
    rw [heven] at hpoint
    simpa [hodd] using hpoint

theorem pointOf?_uncompressed (h : key.point.isOnCurve = true) :
    pointOf? 4 (Endian.toBig 32 key.point.x ++ Endian.toBig 32 key.point.y) = some key.point := by
  obtain ⟨hx, hy, -⟩ := Affine.isOnCurve_iff.1 h
  have hlength : (Endian.toBig 32 key.point.x ++ Endian.toBig 32 key.point.y).length ≠ 32 := by
    simp
  have htake : (Endian.toBig 32 key.point.x ++ Endian.toBig 32 key.point.y).take 32 =
      Endian.toBig 32 key.point.x := List.take_left' (Endian.length_toBig _ _)
  have hdrop : (Endian.toBig 32 key.point.x ++ Endian.toBig 32 key.point.y).drop 32 =
      Endian.toBig 32 key.point.y := List.drop_left' (Endian.length_toBig _ _)
  simp only [pointOf?, if_neg hlength, htake, hdrop, Endian.ofBig_toBig (lt_width hx),
    Endian.ofBig_toBig (lt_width hy), if_true]
  exact if_pos h

/-- A key on the curve is read back from the form it is written in. -/
theorem ofBytes_toBytes (h : key.point.isOnCurve = true) : ofBytes key.toBytes = .ok key := by
  obtain ⟨point, compressed⟩ := key
  cases compressed with
  | true =>
      have hpoint := pointOf?_compressed h
      change ofBytes (toCompressed _) = _
      rw [ofBytes, if_pos (Or.inl (length_toCompressed _)), length_toCompressed]
      simp only [toCompressed, List.headD_cons, List.tail_cons, hpoint]
      rfl
  | false =>
      have hpoint := pointOf?_uncompressed h
      change ofBytes (toUncompressed _) = _
      rw [ofBytes, if_pos (Or.inr (length_toUncompressed _)), length_toUncompressed]
      simp only [toUncompressed, List.cons_append, List.headD_cons, List.tail_cons, hpoint]
      rfl

/-- How a key that is read is written again: an even ordinate is told by the tag 2, also if the
tag 5 told it. -/
def retagged : Bytes → Bytes
  | [] => []
  | tag :: body => (if tag = 5 then 2 else tag) :: body

theorem retagged_of_head? (h : bs.head? ≠ some 5) : retagged bs = bs := by
  cases bs with
  | nil => rfl
  | cons tag body =>
      rw [retagged, if_neg fun htag => h (by rw [htag]; rfl)]

theorem pointOf?_eq_some {tag : UInt8} {body : Bytes} {point : Affine}
    (h : pointOf? tag body = some point) :
    (body.length = 32 ∧ toCompressed ⟨point, true⟩ = retagged (tag :: body)) ∨
      (body.length ≠ 32 ∧ tag = 4 ∧ point.x = Endian.ofBig (body.take 32) ∧
        point.y = Endian.ofBig (body.drop 32)) := by
  unfold pointOf? at h
  split at h
  · next hlength =>
      refine Or.inl ⟨hlength, ?_⟩
      split at h
      · next htag =>
          obtain ⟨hx, heven⟩ := Affine.ofX?_eq_some h
          have hretagged : retagged (tag :: body) = 2 :: body := by
            rcases htag with rfl | rfl <;> rfl
          rw [hretagged, toCompressed, if_neg (by simpa using heven), hx,
            Endian.toBig_ofBig hlength]
      split at h
      · next htag =>
          obtain ⟨hx, hodd⟩ := Affine.ofX?_eq_some h
          have hretagged : retagged (tag :: body) = 3 :: body := by rw [htag]; rfl
          rw [hretagged, toCompressed, if_pos (by simpa using hodd), hx,
            Endian.toBig_ofBig hlength]
      · cases h
  · next hlength =>
      split at h
      · next htag =>
          dsimp only at h
          split at h
          · cases h
            exact Or.inr ⟨hlength, htag, rfl, rfl⟩
          · cases h
      · cases h

/-- A key is written as it was read, but for the tag 5. -/
theorem toBytes_of_ofBytes (h : ofBytes bs = .ok key) : key.toBytes = retagged bs := by
  unfold ofBytes at h
  split at h
  · next hlength =>
      cases bs with
      | nil => simp at hlength
      | cons tag body =>
          rw [List.headD_cons, List.tail_cons] at h
          split at h
          · next point hpoint =>
              cases h
              rcases pointOf?_eq_some hpoint with ⟨hbody, hbytes⟩ | ⟨hbody, rfl, hx, hy⟩
              · have hform : ((tag :: body).length == 33) = true := by simp [hbody]
                rw [hform, ← hbytes]
                rfl
              · have hbody' : body.length = 64 := by
                  rw [List.length_cons] at hlength
                  omega
                have hform : ((4 :: body : Bytes).length == 33) = false := by simp [hbody']
                have htake : (body.take 32).length = 32 := by simp [hbody']
                have hdrop : (body.drop 32).length = 32 := by simp [hbody']
                rw [hform, toBytes, if_neg Bool.false_ne_true, toUncompressed, hx, hy,
                  Endian.toBig_ofBig htake, Endian.toBig_ofBig hdrop, List.cons_append,
                  List.take_append_drop]
                rfl
          · cases h
  · cases h

end PublicKey

end CashWallet
