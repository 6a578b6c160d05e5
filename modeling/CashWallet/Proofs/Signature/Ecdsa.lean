import CashWallet.Proofs.Curve.Group
import CashWallet.Signature.Ecdsa

/-!
# Produced signatures are valid

A public key is the multiple of the generator by the scalar of its private key. What a signature
makes of the generator and the public key is then the multiple by the nonce or its opposite, which
have the same abscissa. So every signature that signing yields is valid under the public key.
-/

namespace CashWallet

namespace Curve

open WeierstrassCurve.Affine (Point)

theorem nsmul_base_congr {a b : Nat} (h : (a : ZMod order) = b) : a • base = b • base := by
  rw [nsmul_eq_nsmul_iff_modEq, addOrderOf_base]
  exact (ZMod.natCast_eq_natCast_iff a b order).1 h

theorem nsmul_base_neg {a b : Nat} (h : (a : ZMod order) = -b) : a • base = -(b • base) := by
  rw [eq_neg_iff_add_eq_zero, ← add_nsmul, ← addOrderOf_dvd_iff_nsmul_eq_zero, addOrderOf_base,
    ← ZMod.natCast_eq_zero_iff, Nat.cast_add, h, neg_add_cancel]

theorem nsmul_base_ne_zero {k : Nat} (h0 : 0 < k) (hk : k < order) : k • base ≠ 0 := by
  rw [Ne, ← addOrderOf_dvd_iff_nsmul_eq_zero, addOrderOf_base]
  exact Nat.not_dvd_of_pos_of_lt h0 hk

/-- The abscissa of a point, as a scalar. -/
def abscissa (P : weierstrass.Point) : Option Nat :=
  (coordinates P).map fun q => q.x % order

theorem abscissa_neg (P : weierstrass.Point) : abscissa (-P) = abscissa P := by
  cases P <;> rfl

theorem Jacobian.abscissa?_of_represents {j : Jacobian} {P : weierstrass.Point}
    (h : j.Represents P) : j.abscissa? = abscissa P := by
  rw [abscissa?, toAffine?_of_represents h, abscissa]

theorem exists_coordinates {P : weierstrass.Point} (h : P ≠ 0) : ∃ p, coordinates P = some p := by
  cases P with
  | zero => exact absurd rfl h
  | some x y n => exact ⟨_, rfl⟩

theorem represents_of_coordinates {P : weierstrass.Point} {p : Affine}
    (h : coordinates P = some p) : (Jacobian.ofAffine p).Represents P := by
  cases P with
  | zero => cases h
  | some x y n =>
      cases h
      refine .finite Nat.one_ne_zero (by decide : 1 < fieldPrime) (ZMod.val_lt y) ?_ ?_
      · simp [Jacobian.ofAffine]
      · simp [Jacobian.ofAffine]

end Curve

open Curve

namespace PrivateKey

theorem coordinates_publicKey (key : PrivateKey) :
    coordinates (key.scalar • base) = some key.publicKey.point := by
  obtain ⟨p, hp⟩ := exists_coordinates (nsmul_base_ne_zero key.scalar_pos key.scalar_lt)
  rw [publicKey, toAffine?_of_represents (represents_base key.scalar_lt), hp, Option.getD_some]

theorem publicKey_isOnCurve (key : PrivateKey) : key.publicKey.point.isOnCurve = true :=
  coordinates_isOnCurve key.coordinates_publicKey

end PrivateKey

theorem Nonce.pick?_eq_some {attempts : Nat} {g : Nonce.Generator} {k : Nat}
    (h : g.pick? attempts = some k) : 0 < k ∧ k < order := by
  induction attempts generalizing g with
  | zero => cases h
  | succ attempts ih =>
      rw [Nonce.Generator.pick?] at h
      split at h
      · next hrange =>
          cases h
          exact hrange
      · exact ih h

namespace Signature

/-- Of the two values of `s` the smaller one is taken, which is the other up to its sign. -/
theorem normalizeS_eq (sig : Signature) : sig.normalizeS.isLowS = true ∧
    sig.normalizeS.r = sig.r ∧
      ((sig.normalizeS.s : ZMod order) = sig.s ∨ (sig.normalizeS.s : ZMod order) = -sig.s) := by
  unfold normalizeS
  split
  · next h => exact ⟨decide_eq_true h, rfl, Or.inl rfl⟩
  · next h =>
      have hodd : order = 2 * (order / 2) + 1 := by decide
      refine ⟨decide_eq_true ?_, rfl, Or.inr ?_⟩
      · change order - sig.s ≤ order / 2
        omega
      · change ((order - sig.s : Nat) : ZMod order) = -sig.s
        rw [Nat.cast_sub sig.s_lt.le, ZMod.natCast_self, zero_sub]

theorem ofScalars?_eq_some {r s : Nat} {sig : Signature} (h : ofScalars? r s = some sig) :
    sig.r = r ∧ sig.s = s := by
  unfold ofScalars? at h
  split at h
  · cases h
    exact ⟨rfl, rfl⟩
  · cases h

theorem orFault_eq_ok_iff {result : Option Signature} {sig : Signature} :
    orFault result = .ok sig ↔ result = some sig := by
  cases result <;> simp [orFault]

theorem cast_s_ne_zero (sig : Signature) : (sig.s : ZMod order) ≠ 0 :=
  fun h => sig.s_pos.ne' ((Modular.cast_eq_zero sig.s_lt).1 h)

end Signature

/-- What a signature is that signing with a nonce yields. -/
theorem PrivateKey.signWithNonce?_eq_some {key : PrivateKey} {digest : Bytes} {nonce : Nat}
    {sig : Signature} (h0 : 0 < nonce) (hlt : nonce < order)
    (h : key.signWithNonce? digest nonce = some sig) :
    sig.isLowS = true ∧ abscissa (nonce • base) = some sig.r ∧
      ((sig.s * nonce : ZMod order) = digestScalar digest + sig.r * key.scalar ∨
        (sig.s * nonce : ZMod order) = -(digestScalar digest + sig.r * key.scalar)) := by
  obtain ⟨r, hr, h⟩ := Option.bind_eq_some_iff.1 h
  obtain ⟨raw, hraw, h⟩ := Option.bind_eq_some_iff.1 h
  cases h
  obtain ⟨rfl, hs⟩ := Signature.ofScalars?_eq_some hraw
  obtain ⟨hlow, hr', hsign⟩ := raw.normalizeS_eq
  have hnonce : (nonce : ZMod order) ≠ 0 := fun hn => h0.ne' ((Modular.cast_eq_zero hlt).1 hn)
  have hproduct : (raw.s * nonce : ZMod order) = digestScalar digest + raw.r * key.scalar := by
    rw [hs, ZMod.natCast_mod, Nat.cast_mul, Modular.cast_inverse hnonce, Nat.cast_add,
      Nat.cast_mul]
    field_simp
  rw [Jacobian.abscissa?_of_represents (represents_base hlt)] at hr
  refine ⟨hlow, by rw [hr, hr'], ?_⟩
  rw [hr']
  rcases hsign with hsign | hsign
  · exact Or.inl (by rw [hsign, hproduct])
  · exact Or.inr (by rw [hsign, neg_mul, hproduct])

/-- What a signature and a digest make of the generator and the public key is a multiple of the
generator. -/
theorem PrivateKey.represents_recombine (key : PrivateKey) (digest : Bytes) (sig : Signature) :
    ∃ a : Nat, (key.publicKey.recombine digest sig).Represents (a • base) ∧
      (sig.s * a : ZMod order) = digestScalar digest + sig.r * key.scalar := by
  have hpos : 0 < order := by decide
  have hw := Modular.cast_inverse sig.cast_s_ne_zero
  refine ⟨digestScalar digest * Modular.inverse order sig.s % order +
    key.scalar * (sig.r * Modular.inverse order sig.s % order), ?_, ?_⟩
  · rw [add_nsmul, mul_nsmul, PublicKey.recombine]
    refine Jacobian.represents_add (represents_base (Nat.mod_lt _ hpos)) ?_
    refine Jacobian.represents_mul (Nat.mod_lt _ hpos) ?_
    exact represents_of_coordinates key.coordinates_publicKey
  · simp only [Nat.cast_add, Nat.cast_mul, ZMod.natCast_mod, hw]
    have hs := sig.cast_s_ne_zero
    field_simp

theorem Nonce.forDigest?_eq_some {scalar nonce : Nat} {digest : Bytes}
    (h : Nonce.forDigest? scalar digest = some nonce) : 0 < nonce ∧ nonce < order := by
  rw [Nonce.forDigest?] at h
  exact Nonce.pick?_eq_some h

/-- The first candidate is taken if it is in range. It comes after four hashes that the generator is
seeded by. -/
theorem Nonce.forDigest?_of_first {scalar : Nat} {digest : Bytes}
    (key value key' value' candidate : Bytes)
    (hkey : Hash.hmac (List.replicate 32 0)
      (List.replicate 32 1 ++ 0 :: (Endian.toBig 32 scalar ++ digest)) = key)
    (hvalue : Hash.hmac key (List.replicate 32 1) = value)
    (hkey' : Hash.hmac key (value ++ 1 :: (Endian.toBig 32 scalar ++ digest)) = key')
    (hvalue' : Hash.hmac key' value = value') (hcandidate : Hash.hmac key' value' = candidate)
    (hrange : 0 < Endian.ofBig candidate ∧ Endian.ofBig candidate < order) :
    Nonce.forDigest? scalar digest = some (Endian.ofBig candidate) := by
  have hseeded : Nonce.Generator.seeded scalar digest = ⟨key', value'⟩ := by
    simp only [Nonce.Generator.seeded, Nonce.Generator.mix, hkey, hvalue, hkey', hvalue']
  rw [Nonce.forDigest?, hseeded, Nonce.Generator.pick?, hcandidate]
  exact if_pos hrange

theorem PrivateKey.sign_eq_ok {key : PrivateKey} {digest : Bytes} {sig : Signature}
    (h : key.sign digest = .ok sig) :
    ∃ nonce, 0 < nonce ∧ nonce < order ∧ key.signWithNonce? digest nonce = some sig := by
  rw [sign, Signature.orFault_eq_ok_iff] at h
  obtain ⟨nonce, hnonce, hsig⟩ := Option.bind_eq_some_iff.1 h
  obtain ⟨h0, hlt⟩ := Nonce.forDigest?_eq_some hnonce
  exact ⟨nonce, h0, hlt, hsig⟩

/-- A signature that signing yields is valid. -/
theorem PrivateKey.verify_sign {key : PrivateKey} {digest : Bytes} {sig : Signature}
    (h : key.sign digest = .ok sig) : key.publicKey.verify digest sig = true := by
  obtain ⟨nonce, h0, hlt, hsig⟩ := sign_eq_ok h
  obtain ⟨hlow, hr, hsign⟩ := signWithNonce?_eq_some h0 hlt hsig
  obtain ⟨a, hrepresents, ha⟩ := key.represents_recombine digest sig
  have habscissa : abscissa (a • base) = some sig.r := by
    rw [← ha, ← mul_neg] at hsign
    rcases hsign with hsign | hsign
    · have hequal := nsmul_base_congr (mul_left_cancel₀ sig.cast_s_ne_zero hsign)
      calc abscissa (a • base) = abscissa (nonce • base) := by rw [hequal]
        _ = some sig.r := hr
    · have hopposite := nsmul_base_neg (mul_left_cancel₀ sig.cast_s_ne_zero hsign)
      calc abscissa (a • base) = abscissa (-(a • base)) := (abscissa_neg _).symm
        _ = abscissa (nonce • base) := by rw [hopposite]
        _ = some sig.r := hr
  rw [PublicKey.verify, hlow, Jacobian.abscissa?_of_represents hrepresents, habscissa,
    Bool.true_and]
  exact beq_self_eq_true _

end CashWallet
