import CashWallet.Proofs.Signature.Der
import CashWallet.Proofs.Signature.Ecdsa

/-!
# The strict reader of signatures

Lengths and integers are read in their shortest form only. A number whose first byte is not zero
tells how many bytes it has, so an integer that is read is the written one, and with it both
elements and the sequence around them.
-/

namespace CashWallet.Signature

theorem foldl_bounds (acc : Nat) (bs : Bytes) :
    acc * Nat.pow 256 bs.length ≤ bs.foldl (fun acc b => 256 * acc + b.toNat) acc ∧
      bs.foldl (fun acc b => 256 * acc + b.toNat) acc < (acc + 1) * Nat.pow 256 bs.length := by
  simp only [Nat.pow_eq]
  induction bs generalizing acc with
  | nil => simp
  | cons b bs ih =>
      obtain ⟨hlow, hhigh⟩ := ih (256 * acc + b.toNat)
      have hb := b.toNat_lt
      rw [List.foldl_cons, List.length_cons, Nat.pow_succ', ← Nat.mul_assoc, ← Nat.mul_assoc]
      constructor
      · refine Nat.le_trans (Nat.mul_le_mul_right _ ?_) hlow
        omega
      · refine Nat.lt_of_lt_of_le hhigh (Nat.mul_le_mul_right _ ?_)
        omega

/-- A first byte that is not zero tells the length from the number. -/
theorem ofBig_bounds {b : UInt8} (hb : b ≠ 0) (rest : Bytes) :
    Nat.pow 256 rest.length ≤ Endian.ofBig (b :: rest) ∧
      Endian.ofBig (b :: rest) < Nat.pow 256 (rest.length + 1) := by
  have hpos : 0 < b.toNat := UInt8.pos_iff_ne_zero.2 hb
  have hlt := b.toNat_lt
  obtain ⟨hlow, hhigh⟩ := foldl_bounds (256 * 0 + b.toNat) rest
  simp only [Nat.pow_eq] at hlow hhigh ⊢
  constructor
  · refine Nat.le_trans ?_ hlow
    exact Nat.le_mul_of_pos_left _ (by omega)
  · refine Nat.lt_of_lt_of_le hhigh ?_
    rw [Nat.pow_succ']
    exact Nat.mul_le_mul_right _ (by omega)

theorem ofBig_cons_inj {b b' : UInt8} {rest rest' : Bytes} (hb : b ≠ 0) (hb' : b' ≠ 0)
    (h : Endian.ofBig (b :: rest) = Endian.ofBig (b' :: rest')) : b :: rest = b' :: rest' := by
  obtain ⟨hlow, hhigh⟩ := ofBig_bounds hb rest
  obtain ⟨hlow', hhigh'⟩ := ofBig_bounds hb' rest'
  have hle := (Nat.pow_lt_pow_iff_right (by decide)).1 (Nat.lt_of_le_of_lt hlow (h ▸ hhigh'))
  have hge := (Nat.pow_lt_pow_iff_right (by decide)).1 (Nat.lt_of_le_of_lt hlow' (h ▸ hhigh))
  have hlength : rest.length = rest'.length := by omega
  calc b :: rest = Endian.toBig (rest.length + 1) (Endian.ofBig (b :: rest)) :=
        (Endian.toBig_ofBig List.length_cons).symm
    _ = Endian.toBig (rest'.length + 1) (Endian.ofBig (b' :: rest')) := by rw [h, hlength]
    _ = b' :: rest' := Endian.toBig_ofBig List.length_cons

theorem integerBody_ofBig {b : UInt8} (hb : b ≠ 0) (rest : Bytes) :
    integerBody (Endian.ofBig (b :: rest)) =
      if b < 0x80 then b :: rest else 0 :: b :: rest := by
  obtain ⟨hlow, hhigh⟩ := ofBig_bounds hb rest
  have hpos : 0 < Endian.ofBig (b :: rest) :=
    Nat.lt_of_lt_of_le (Nat.pow_pos (by decide)) hlow
  obtain ⟨b', rest', hb', hn, -, hcases⟩ := integerBody_cases hpos hhigh
  cases ofBig_cons_inj hb' hb hn
  rcases hcases with ⟨hsign, hbody⟩ | ⟨hsign, hbody⟩
  · rw [hbody, if_pos hsign]
  · rw [hbody, if_neg hsign]

theorem readInteger?_eq_some {bs : Bytes} {n : Nat} (h : readInteger? bs = some n) (h0 : 0 < n) :
    integerBody n = bs := by
  unfold readInteger? at h
  split at h
  · cases h
  · next b =>
      split at h
      · next hsign =>
          cases h
          have hb : b ≠ 0 := UInt8.pos_iff_ne_zero.1 h0
          have hone : b.toNat = Endian.ofBig [b] := by simp [Endian.ofBig]
          rw [hone, integerBody_ofBig hb, if_pos hsign]
      · cases h
  · next b rest =>
      split at h
      · cases h
      · next hsign =>
          cases h
          have hb : b ≠ 0 := by
            rintro rfl
            exact hsign (by decide)
          rw [integerBody_ofBig hb, if_neg hsign]
  · next b rest hsingle hzero =>
      split at h
      · next hsign =>
          cases h
          have hb : b ≠ 0 := by
            rintro rfl
            cases rest with
            | nil => exact hsingle rfl
            | cons c rest => exact hzero c rest rfl rfl
          rw [integerBody_ofBig hb, if_pos hsign]
      · cases h

theorem readLength?_eq_some {bs rest : Bytes} {n : Nat} (h : readLength? bs = some (n, rest))
    (hshort : n < 0x80) : bs = UInt8.ofNat n :: rest := by
  cases bs with
  | nil => cases h
  | cons b tail =>
      rw [readLength?] at h
      split at h
      · cases h
        rw [UInt8.ofNat_toNat]
      · dsimp only at h
        split at h
        · next hlong =>
            obtain ⟨hn, -⟩ := Prod.mk.inj (Option.some.inj h)
            rw [hn] at hlong
            exact absurd hshort (Nat.not_lt_of_le hlong.2.2.2.1)
        · cases h

theorem readElement?_eq_some {tag : UInt8} {bs body rest : Bytes}
    (h : readElement? tag bs = some (body, rest)) (hshort : body.length < 0x80) :
    bs = element tag body ++ rest := by
  cases bs with
  | nil => cases h
  | cons t tail =>
      rw [readElement?] at h
      split at h
      · next htag =>
          split at h
          · next n behind hlength =>
              split at h
              · next hn =>
                  cases h
                  rw [List.length_take_of_le hn] at hshort
                  rw [htag, readLength?_eq_some hlength hshort, element,
                    List.length_take_of_le hn, List.cons_append, List.cons_append,
                    List.take_append_drop]
              · cases h
          · cases h
      · cases h

/-- Whatever is read as a signature is its written form. -/
theorem toDer_of_ofDer {bs : Bytes} {sig : Signature} (h : ofDer bs = .ok sig) :
    sig.toDer = bs := by
  have hread := orFault_eq_ok_iff.1 h
  simp only [ofDer?, bind, Option.bind_eq_some_iff] at hread
  obtain ⟨⟨body, trailing⟩, houter, ⟨r, rest⟩, hr, ⟨s, inner⟩, hs, hread⟩ := hread
  dsimp only at hr hs hread
  split at hread
  · next hempty =>
      simp only [Bool.and_eq_true, List.isEmpty_iff] at hempty
      obtain ⟨rfl, rfl⟩ := hempty
      obtain ⟨m, hm, hread⟩ := Option.bind_eq_some_iff.1 hread
      obtain ⟨n, hn, hscalars⟩ := Option.bind_eq_some_iff.1 hread
      obtain ⟨rfl, rfl⟩ := ofScalars?_eq_some hscalars
      obtain ⟨⟨-, hr33⟩, -, hs33⟩ := sig.length_bodies
      have hrbody := readInteger?_eq_some hm sig.r_pos
      have hsbody := readInteger?_eq_some hn sig.s_pos
      rw [hrbody] at hr33
      rw [hsbody] at hs33
      have hrest := readElement?_eq_some hs (Nat.lt_of_le_of_lt hs33 (by decide))
      have hbody := readElement?_eq_some hr (Nat.lt_of_le_of_lt hr33 (by decide))
      rw [List.append_nil] at hrest
      rw [hrest] at hbody
      have hshort : body.length < 0x80 := by
        rw [hbody, List.length_append, length_element, length_element]
        omega
      have hbs := readElement?_eq_some houter hshort
      rw [List.append_nil] at hbs
      rw [toDer, hrbody, hsbody, hbs, hbody]
  · cases hread

end CashWallet.Signature
