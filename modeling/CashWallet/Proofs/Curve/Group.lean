import CashWallet.Proofs.Curve.Prime
import Mathlib.AlgebraicGeometry.EllipticCurve.Affine.Point
import Mathlib.FieldTheory.Finite.Basic

/-!
# The group of the curve

The points of the curve form a group. A triple of Jacobian coordinates represents a point of it, and
doubling, adding and taking multiples of triples is doubling, adding and taking multiples of points.
The generator is of prime order.
-/

namespace CashWallet

namespace Modular

variable {m : Nat}

theorem sub_lt (hm : 0 < m) (a b : Nat) : sub m a b < m :=
  Nat.mod_lt _ hm

theorem cast_sub {a b : Nat} (h : b ≤ m) : ((sub m a b : Nat) : ZMod m) = a - b := by
  rw [sub, ZMod.natCast_mod, Nat.cast_add, Nat.cast_sub h, ZMod.natCast_self, zero_sub,
    sub_eq_add_neg]

theorem cast_inj {a b : Nat} (ha : a < m) (hb : b < m) : (a : ZMod m) = b ↔ a = b := by
  rw [ZMod.natCast_eq_natCast_iff', Nat.mod_eq_of_lt ha, Nat.mod_eq_of_lt hb]

theorem cast_eq_zero {a : Nat} (ha : a < m) : (a : ZMod m) = 0 ↔ a = 0 := by
  rw [← Nat.cast_zero, cast_inj ha (Nat.zero_lt_of_lt ha)]

theorem cast_inverse [Fact m.Prime] {a : Nat} (ha : (a : ZMod m) ≠ 0) :
    ((inverse m a : Nat) : ZMod m) = (a : ZMod m)⁻¹ := by
  have htwo := (Fact.out : m.Prime).two_le
  rw [inverse, cast_pow]
  refine eq_inv_of_mul_eq_one_left ?_
  rw [← pow_succ, ← ZMod.pow_card_sub_one_eq_one ha]
  congr 1
  omega

end Modular

namespace Curve

open WeierstrassCurve.Affine (Point)

theorem fieldPrime_pos : 0 < fieldPrime := by decide

/-- The curve as an equation over the field. -/
def weierstrass : WeierstrassCurve.Affine (ZMod fieldPrime) := ⟨0, 0, 0, 0, 7⟩

theorem cast_ne_zero {n : Nat} (h0 : 0 < n) (h : n < fieldPrime) : (n : ZMod fieldPrime) ≠ 0 :=
  fun hn => h0.ne' ((Modular.cast_eq_zero h).1 hn)

theorem two_ne_zero : (2 : ZMod fieldPrime) ≠ 0 :=
  cast_ne_zero (n := 2) (by decide) (by decide)

theorem equation_iff {x y : ZMod fieldPrime} : weierstrass.Equation x y ↔ y ^ 2 = x ^ 3 + 7 := by
  simp [WeierstrassCurve.Affine.equation_iff, weierstrass]

/-- The curve has no singular points. -/
theorem nonsingular_iff {x y : ZMod fieldPrime} :
    weierstrass.Nonsingular x y ↔ y ^ 2 = x ^ 3 + 7 := by
  have hdiscriminant : weierstrass.Δ = -(21168 : Nat) := by
    simp [weierstrass, WeierstrassCurve.Δ, WeierstrassCurve.b₂, WeierstrassCurve.b₄,
      WeierstrassCurve.b₆, WeierstrassCurve.b₈]
    norm_num
  rw [← WeierstrassCurve.Affine.equation_iff_nonsingular_of_Δ_ne_zero, equation_iff]
  rw [hdiscriminant, neg_ne_zero]
  exact cast_ne_zero (by decide) (by decide)

theorem negY_eq (x y : ZMod fieldPrime) : weierstrass.negY x y = -y := by
  simp [WeierstrassCurve.Affine.negY, weierstrass]

theorem addX_eq (x₁ x₂ l : ZMod fieldPrime) : weierstrass.addX x₁ x₂ l = l ^ 2 - x₁ - x₂ := by
  simp [weierstrass]

theorem addY_eq (x₁ x₂ y l : ZMod fieldPrime) :
    weierstrass.addY x₁ x₂ y l = l * (x₁ - (l ^ 2 - x₁ - x₂)) - y := by
  rw [WeierstrassCurve.Affine.addY, negY_eq, WeierstrassCurve.Affine.negAddY, addX_eq]
  ring

theorem ne_negY {x y : ZMod fieldPrime} (hy : y ≠ 0) : y ≠ weierstrass.negY x y := by
  rw [negY_eq]
  intro h
  have htwice : 2 * y = 0 := by linear_combination h
  exact (mul_ne_zero two_ne_zero hy) htwice

/-- The slope of a tangent. -/
theorem slope_self {x y : ZMod fieldPrime} (hy : y ≠ 0) :
    weierstrass.slope x x y y * (2 * y) = 3 * x ^ 2 := by
  rw [WeierstrassCurve.Affine.slope_of_Y_ne rfl (ne_negY hy), negY_eq]
  have hdiv : y - -y ≠ 0 := by
    rw [sub_neg_eq_add, ← two_mul]
    exact mul_ne_zero two_ne_zero hy
  rw [div_mul_eq_mul_div, div_eq_iff hdiv]
  simp only [weierstrass]
  ring

/-- The slope of a secant. -/
theorem slope_of_ne {x₁ x₂ : ZMod fieldPrime} (y₁ y₂ : ZMod fieldPrime) (h : x₁ ≠ x₂) :
    weierstrass.slope x₁ x₂ y₁ y₂ * (x₂ - x₁) = y₂ - y₁ := by
  rw [WeierstrassCurve.Affine.slope_of_X_ne h, div_mul_eq_mul_div,
    div_eq_iff (sub_ne_zero.2 h)]
  ring

namespace Jacobian

/-- A triple stands for a point. The coordinates that are compared are reduced. -/
inductive Represents : Jacobian → weierstrass.Point → Prop
  | infinity {j} (hz : j.z = 0) : Represents j 0
  | finite {j x y h} (hz : j.z ≠ 0) (z_lt : j.z < fieldPrime) (y_lt : j.y < fieldPrime)
      (hx : (j.x : ZMod fieldPrime) = x * (j.z : ZMod fieldPrime) ^ 2)
      (hy : (j.y : ZMod fieldPrime) = y * (j.z : ZMod fieldPrime) ^ 3) :
      Represents j (.some x y h)

theorem mod_fieldPrime_le (n : Nat) : n % fieldPrime ≤ fieldPrime :=
  (Nat.mod_lt n fieldPrime_pos).le

section double

variable {j : Jacobian} (hz : j.z ≠ 0) (hy : j.y ≠ 0)

include hz hy

theorem double_eq : j.double =
    let s := 4 * j.x * (j.y * j.y % fieldPrime) % fieldPrime
    let m := 3 * j.x * j.x % fieldPrime
    let x := Modular.sub fieldPrime (m * m) (2 * s % fieldPrime)
    ⟨x, Modular.sub fieldPrime (m * Modular.sub fieldPrime s x)
      (8 * (j.y * j.y % fieldPrime) * (j.y * j.y % fieldPrime) % fieldPrime),
      2 * j.y * j.z % fieldPrime⟩ := by
  rw [double, if_neg (not_or.2 ⟨hz, hy⟩)]

theorem cast_double_x : (j.double.x : ZMod fieldPrime) =
    (3 * (j.x : ZMod fieldPrime) ^ 2) ^ 2 - 8 * j.x * (j.y : ZMod fieldPrime) ^ 2 := by
  rw [double_eq hz hy]
  simp only [Modular.cast_sub (mod_fieldPrime_le _), ZMod.natCast_mod, Nat.cast_mul,
    Nat.cast_ofNat]
  ring

theorem cast_double_y : (j.double.y : ZMod fieldPrime) =
    3 * (j.x : ZMod fieldPrime) ^ 2 * (4 * j.x * (j.y : ZMod fieldPrime) ^ 2 - j.double.x) -
      8 * (j.y : ZMod fieldPrime) ^ 4 := by
  rw [double_eq hz hy]
  simp only [Modular.cast_sub (mod_fieldPrime_le _),
    Modular.cast_sub (Modular.sub_lt fieldPrime_pos _ _).le, ZMod.natCast_mod, Nat.cast_mul,
    Nat.cast_ofNat]
  ring

theorem cast_double_z : (j.double.z : ZMod fieldPrime) = 2 * j.y * j.z := by
  rw [double_eq hz hy]
  simp only [ZMod.natCast_mod, Nat.cast_mul, Nat.cast_ofNat]

theorem double_lt : j.double.y < fieldPrime ∧ j.double.z < fieldPrime := by
  rw [double_eq hz hy]
  exact ⟨Modular.sub_lt fieldPrime_pos _ _, Nat.mod_lt _ fieldPrime_pos⟩

end double

/-- Doubling a triple doubles the point. -/
theorem represents_double {j : Jacobian} {P : weierstrass.Point} (h : j.Represents P) :
    j.double.Represents (P + P) := by
  cases h with
  | infinity hz =>
      rw [double, if_pos (Or.inl hz), add_zero]
      exact .infinity rfl
  | @finite x y h hz z_lt y_lt hx hy =>
      have hz' : (j.z : ZMod fieldPrime) ≠ 0 := cast_ne_zero (Nat.pos_of_ne_zero hz) z_lt
      by_cases hy0 : j.y = 0
      · rw [hy0, Nat.cast_zero] at hy
        have hzero : y = 0 := by
          rcases mul_eq_zero.1 hy.symm with hy | hz
          · exact hy
          · exact absurd hz (pow_ne_zero 3 hz')
        rw [double, if_pos (Or.inr hy0), Point.add_self_of_Y_eq (by rw [negY_eq, hzero, neg_zero])]
        exact .infinity rfl
      · have hy' : (j.y : ZMod fieldPrime) ≠ 0 := cast_ne_zero (Nat.pos_of_ne_zero hy0) y_lt
        have hne : y ≠ 0 := by
          rintro rfl
          exact hy' (by rw [hy, zero_mul])
        have hslope := slope_self (x := x) hne
        have hlambda : 3 * (j.x : ZMod fieldPrime) ^ 2 =
            weierstrass.slope x x y y * (2 * j.y * j.z) := by
          rw [hx, hy]
          linear_combination (-(j.z : ZMod fieldPrime) ^ 4) * hslope
        have hdouble_z : (j.double.z : ZMod fieldPrime) ≠ 0 := by
          rw [cast_double_z hz hy0]
          exact mul_ne_zero (mul_ne_zero two_ne_zero hy') hz'
        rw [Point.add_self_of_Y_ne (ne_negY hne)]
        refine .finite (fun hz0 => hdouble_z (by rw [hz0, Nat.cast_zero])) (double_lt hz hy0).2
          (double_lt hz hy0).1 ?_ ?_
        · rw [cast_double_x hz hy0, cast_double_z hz hy0, addX_eq, hlambda]
          linear_combination (-8 * (j.y : ZMod fieldPrime) ^ 2) * hx
        · rw [cast_double_y hz hy0, cast_double_x hz hy0, cast_double_z hz hy0, addY_eq, hlambda]
          linear_combination
            (24 * weierstrass.slope x x y y * (j.y : ZMod fieldPrime) ^ 3 * j.z) * hx -
              8 * (j.y : ZMod fieldPrime) ^ 3 * hy

section add

variable (p q : Jacobian)

/-- Abscissas and ordinates over a common denominator. -/
def scaledX (p q : Jacobian) : Nat := p.x * (q.z * q.z % fieldPrime) % fieldPrime

def scaledY (p q : Jacobian) : Nat := p.y * (q.z * q.z % fieldPrime) % fieldPrime * q.z % fieldPrime

theorem cast_scaledX : (p.scaledX q : ZMod fieldPrime) = p.x * (q.z : ZMod fieldPrime) ^ 2 := by
  simp only [scaledX, ZMod.natCast_mod, Nat.cast_mul]
  ring

theorem cast_scaledY : (p.scaledY q : ZMod fieldPrime) = p.y * (q.z : ZMod fieldPrime) ^ 3 := by
  simp only [scaledY, ZMod.natCast_mod, Nat.cast_mul]
  ring

variable {p q}

theorem add_eq (hp : p.z ≠ 0) (hq : q.z ≠ 0) : p.add q =
    if p.scaledX q = q.scaledX p then
      if p.scaledY q = q.scaledY p then p.double else infinity
    else
      let h := Modular.sub fieldPrime (q.scaledX p) (p.scaledX q)
      let r := Modular.sub fieldPrime (q.scaledY p) (p.scaledY q)
      let hhh := h * (h * h % fieldPrime) % fieldPrime
      let v := p.scaledX q * (h * h % fieldPrime) % fieldPrime
      let x := Modular.sub fieldPrime (r * r) ((hhh + 2 * v) % fieldPrime)
      ⟨x, Modular.sub fieldPrime (r * Modular.sub fieldPrime v x)
        (p.scaledY q * hhh % fieldPrime), p.z * q.z % fieldPrime * h % fieldPrime⟩ := by
  rw [add, if_neg hp, if_neg hq]
  rfl

theorem scaledX_lt (p q : Jacobian) : p.scaledX q < fieldPrime :=
  Nat.mod_lt _ fieldPrime_pos

theorem scaledY_lt (p q : Jacobian) : p.scaledY q < fieldPrime :=
  Nat.mod_lt _ fieldPrime_pos

section apart

variable (hp : p.z ≠ 0) (hq : q.z ≠ 0) (hx : p.scaledX q ≠ q.scaledX p)

include hp hq hx

theorem cast_add_z : ((p.add q).z : ZMod fieldPrime) =
    p.z * q.z * (q.scaledX p - p.scaledX q) := by
  rw [add_eq hp hq, if_neg hx]
  simp only [Modular.cast_sub (scaledX_lt _ _).le, ZMod.natCast_mod, Nat.cast_mul]

theorem cast_add_x : ((p.add q).x : ZMod fieldPrime) =
    (q.scaledY p - p.scaledY q : ZMod fieldPrime) ^ 2 -
      ((q.scaledX p - p.scaledX q : ZMod fieldPrime) ^ 3 +
        2 * p.scaledX q * (q.scaledX p - p.scaledX q : ZMod fieldPrime) ^ 2) := by
  rw [add_eq hp hq, if_neg hx]
  simp only [Modular.cast_sub (mod_fieldPrime_le _), Modular.cast_sub (scaledX_lt _ _).le,
    Modular.cast_sub (scaledY_lt _ _).le, ZMod.natCast_mod, Nat.cast_mul, Nat.cast_add,
    Nat.cast_ofNat]
  ring

theorem cast_add_y : ((p.add q).y : ZMod fieldPrime) =
    (q.scaledY p - p.scaledY q) *
      (p.scaledX q * (q.scaledX p - p.scaledX q : ZMod fieldPrime) ^ 2 - (p.add q).x) -
      p.scaledY q * (q.scaledX p - p.scaledX q : ZMod fieldPrime) ^ 3 := by
  rw [add_eq hp hq, if_neg hx]
  simp only [Modular.cast_sub (mod_fieldPrime_le _), Modular.cast_sub (scaledX_lt _ _).le,
    Modular.cast_sub (scaledY_lt _ _).le, Modular.cast_sub (Modular.sub_lt fieldPrime_pos _ _).le,
    ZMod.natCast_mod, Nat.cast_mul, Nat.cast_add, Nat.cast_ofNat]
  ring

theorem add_lt : (p.add q).y < fieldPrime ∧ (p.add q).z < fieldPrime := by
  rw [add_eq hp hq, if_neg hx]
  exact ⟨Modular.sub_lt fieldPrime_pos _ _, Nat.mod_lt _ fieldPrime_pos⟩

end apart

end add

section finite

variable {p q : Jacobian} {x₁ y₁ x₂ y₂ : ZMod fieldPrime} {n₁ : weierstrass.Nonsingular x₁ y₁}
  {n₂ : weierstrass.Nonsingular x₂ y₂} (h₁ : p.Represents (.some x₁ y₁ n₁))
  (h₂ : q.Represents (.some x₂ y₂ n₂))

include h₁

theorem Represents.z_ne_zero : p.z ≠ 0 := by
  cases h₁ with
  | finite hz => exact hz

theorem Represents.cast_z_ne_zero : (p.z : ZMod fieldPrime) ≠ 0 := by
  cases h₁ with
  | finite hz z_lt => exact cast_ne_zero (Nat.pos_of_ne_zero hz) z_lt

theorem Represents.cast_scaledX :
    (p.scaledX q : ZMod fieldPrime) = x₁ * (p.z * q.z : ZMod fieldPrime) ^ 2 := by
  cases h₁ with
  | finite hz z_lt y_lt hx hy =>
      rw [Jacobian.cast_scaledX, hx]
      ring

theorem Represents.cast_scaledY :
    (p.scaledY q : ZMod fieldPrime) = y₁ * (p.z * q.z : ZMod fieldPrime) ^ 3 := by
  cases h₁ with
  | finite hz z_lt y_lt hx hy =>
      rw [Jacobian.cast_scaledY, hy]
      ring

include h₂

theorem Represents.scaledX_eq_iff : p.scaledX q = q.scaledX p ↔ x₁ = x₂ := by
  have hd := mul_ne_zero h₁.cast_z_ne_zero h₂.cast_z_ne_zero
  rw [← Modular.cast_inj (scaledX_lt _ _) (scaledX_lt _ _), h₁.cast_scaledX, h₂.cast_scaledX,
    mul_comm (q.z : ZMod fieldPrime), mul_left_inj' (pow_ne_zero 2 hd)]

theorem Represents.scaledY_eq_iff : p.scaledY q = q.scaledY p ↔ y₁ = y₂ := by
  have hd := mul_ne_zero h₁.cast_z_ne_zero h₂.cast_z_ne_zero
  rw [← Modular.cast_inj (scaledY_lt _ _) (scaledY_lt _ _), h₁.cast_scaledY, h₂.cast_scaledY,
    mul_comm (q.z : ZMod fieldPrime), mul_left_inj' (pow_ne_zero 3 hd)]

/-- The sum of points that a secant goes through. -/
theorem represents_add_of_ne (hne : x₁ ≠ x₂) :
    (p.add q).Represents (.some x₁ y₁ n₁ + .some x₂ y₂ n₂) := by
  have hz₁ := h₁.z_ne_zero
  have hz₂ := h₂.z_ne_zero
  have hd := mul_ne_zero h₁.cast_z_ne_zero h₂.cast_z_ne_zero
  have hxx : p.scaledX q ≠ q.scaledX p := mt (h₁.scaledX_eq_iff h₂).1 hne
  have hslope := slope_of_ne y₁ y₂ hne
  have hy₂ : y₂ = y₁ + weierstrass.slope x₁ x₂ y₁ y₂ * (x₂ - x₁) := by
    linear_combination -hslope
  have hadd_z : ((p.add q).z : ZMod fieldPrime) ≠ 0 := by
    rw [cast_add_z hz₁ hz₂ hxx, h₁.cast_scaledX, h₂.cast_scaledX, mul_comm (q.z : ZMod fieldPrime),
      ← sub_mul]
    exact mul_ne_zero hd (mul_ne_zero (sub_ne_zero.2 hne.symm) (pow_ne_zero 2 hd))
  rw [Point.add_of_X_ne hne]
  refine .finite (fun hz0 => hadd_z (by rw [hz0, Nat.cast_zero])) (add_lt hz₁ hz₂ hxx).2
    (add_lt hz₁ hz₂ hxx).1 ?_ ?_
  · rw [cast_add_x hz₁ hz₂ hxx, cast_add_z hz₁ hz₂ hxx, addX_eq, h₁.cast_scaledX, h₂.cast_scaledX,
      h₁.cast_scaledY, h₂.cast_scaledY]
    generalize weierstrass.slope x₁ x₂ y₁ y₂ = l at hy₂ ⊢
    rw [hy₂]
    ring
  · rw [cast_add_y hz₁ hz₂ hxx, cast_add_x hz₁ hz₂ hxx, cast_add_z hz₁ hz₂ hxx, addY_eq,
      h₁.cast_scaledX, h₂.cast_scaledX, h₁.cast_scaledY, h₂.cast_scaledY]
    generalize weierstrass.slope x₁ x₂ y₁ y₂ = l at hy₂ ⊢
    rw [hy₂]
    ring

end finite

/-- Adding triples adds the points. -/
theorem represents_add {p q : Jacobian} {P Q : weierstrass.Point} (h₁ : p.Represents P)
    (h₂ : q.Represents Q) : (p.add q).Represents (P + Q) := by
  cases id h₁ with
  | infinity hz =>
      rw [add, if_pos hz, zero_add]
      exact h₂
  | @finite x₁ y₁ n₁ hz₁ =>
  cases id h₂ with
  | infinity hz =>
      rw [add, if_neg hz₁, if_pos hz, add_zero]
      exact h₁
  | @finite x₂ y₂ n₂ hz₂ =>
      by_cases hx : x₁ = x₂
      · have hxx := (h₁.scaledX_eq_iff h₂).2 hx
        by_cases hy : y₁ = y₂
        · have hyy := (h₁.scaledY_eq_iff h₂).2 hy
          subst hx hy
          rw [add_eq hz₁ hz₂, if_pos hxx, if_pos hyy]
          exact represents_double h₁
        · have hyy : p.scaledY q ≠ q.scaledY p := mt (h₁.scaledY_eq_iff h₂).1 hy
          have hopposite : y₁ = weierstrass.negY x₂ y₂ :=
            (WeierstrassCurve.Affine.Y_eq_of_X_eq n₁.1 n₂.1 hx).resolve_left hy
          rw [add_eq hz₁ hz₂, if_pos hxx, if_neg hyy, Point.add_of_Y_eq hx hopposite]
          exact .infinity rfl
      · exact represents_add_of_ne h₁ h₂ hx

theorem eq_zero_of_represents {j : Jacobian} {P : weierstrass.Point} (h : j.Represents P)
    (hz : j.z = 0) : P = 0 := by
  cases h with
  | infinity => rfl
  | finite hz' => exact absurd hz hz'

theorem represents_mulUpTo {bits k : Nat} {j : Jacobian} {P : weierstrass.Point}
    (hk : k < 2 ^ bits) (h : j.Represents P) : (mulUpTo bits k j).Represents (k • P) := by
  induction bits generalizing k j P with
  | zero =>
      have hzero : k = 0 := by simpa using hk
      rw [hzero, zero_nsmul]
      exact .infinity rfl
  | succ bits ih =>
      have hhalf : k / 2 < 2 ^ bits := by
        rw [pow_succ] at hk
        omega
      have hrest := ih hhalf (represents_double h)
      rw [← two_nsmul, ← mul_nsmul] at hrest
      rw [mulUpTo]
      split
      · next hodd =>
          have hk' : k • P = P + (2 * (k / 2)) • P := by
            rw [← succ_nsmul']
            congr 1
            omega
          rw [hk']
          exact represents_add h hrest
      · next heven =>
          have hk' : k = 2 * (k / 2) := by omega
          rwa [← hk'] at hrest

/-- Multiples of a triple represent the multiples of the point. -/
theorem represents_mul {k : Nat} {j : Jacobian} {P : weierstrass.Point} (hk : k < order)
    (h : j.Represents P) : (mul k j).Represents (k • P) :=
  represents_mulUpTo (Nat.lt_trans hk (by decide)) h

end Jacobian

namespace Affine

theorem isOnCurve_iff {p : Affine} : p.isOnCurve = true ↔ p.x < fieldPrime ∧ p.y < fieldPrime ∧
    weierstrass.Nonsingular p.x p.y := by
  rw [isOnCurve, Bool.and_eq_true, Bool.and_eq_true, decide_eq_true_eq, decide_eq_true_eq,
    beq_iff_eq, and_assoc, cubic, nonsingular_iff]
  have hcast : p.y * p.y % fieldPrime = (p.x * p.x * p.x + 7) % fieldPrime ↔
      (p.y : ZMod fieldPrime) ^ 2 = (p.x : ZMod fieldPrime) ^ 3 + 7 := by
    rw [← ZMod.natCast_eq_natCast_iff']
    push_cast
    ring_nf
  rw [hcast]

end Affine

/-- The coordinates of a point, reduced. -/
def coordinates : weierstrass.Point → Option Affine
  | .zero => none
  | .some x y _ => some ⟨x.val, y.val⟩

theorem represents_ofAffine {p : Affine} (h : p.isOnCurve = true) :
    (Jacobian.ofAffine p).Represents (.some p.x p.y (Affine.isOnCurve_iff.1 h).2.2) := by
  refine .finite Nat.one_ne_zero (by decide : 1 < fieldPrime) (Affine.isOnCurve_iff.1 h).2.1 ?_ ?_
  · simp [Jacobian.ofAffine]
  · simp [Jacobian.ofAffine]

theorem toAffine?_of_represents {j : Jacobian} {P : weierstrass.Point} (h : j.Represents P) :
    j.toAffine? = coordinates P := by
  cases h with
  | infinity hz =>
      rw [Jacobian.toAffine?, if_pos hz]
      rfl
  | @finite x y h hz z_lt y_lt hx hy =>
      have hz' : (j.z : ZMod fieldPrime) ≠ 0 := cast_ne_zero (Nat.pos_of_ne_zero hz) z_lt
      have hw := Modular.cast_inverse hz'
      have hval {a : Nat} {b : ZMod fieldPrime} (hab : ((a % fieldPrime : Nat) : ZMod fieldPrime) = b) :
          a % fieldPrime = b.val := by
        rw [← hab, ZMod.val_cast_of_lt (Nat.mod_lt a fieldPrime_pos)]
      rw [Jacobian.toAffine?, if_neg hz, coordinates, Option.some_inj, Affine.mk.injEq]
      constructor
      · refine hval ?_
        simp only [ZMod.natCast_mod, Nat.cast_mul, hw, hx]
        field_simp
      · refine hval ?_
        simp only [ZMod.natCast_mod, Nat.cast_mul, hw, hy]
        field_simp

theorem coordinates_isOnCurve {P : weierstrass.Point} {p : Affine} (h : coordinates P = some p) :
    p.isOnCurve = true := by
  cases P with
  | zero => cases h
  | some x y n =>
      cases h
      rw [Affine.isOnCurve_iff, ZMod.natCast_zmod_val, ZMod.natCast_zmod_val]
      exact ⟨ZMod.val_lt x, ZMod.val_lt y, n⟩

/-! ## The generator -/

theorem generator_isOnCurve : generator.isOnCurve = true := by
  decide +kernel

/-- The generator as a point. -/
def base : weierstrass.Point :=
  .some generator.x generator.y (Affine.isOnCurve_iff.1 generator_isOnCurve).2.2

theorem represents_base {k : Nat} (hk : k < order) :
    ((Jacobian.ofAffine generator).mul k).Represents (k • base) :=
  Jacobian.represents_mul hk (represents_ofAffine generator_isOnCurve)

theorem order_nsmul_base : order • base = 0 := by
  have hmul : ((Jacobian.ofAffine generator).mul order).z = 0 := by decide +kernel
  refine Jacobian.eq_zero_of_represents ?_ hmul
  exact Jacobian.represents_mulUpTo (by decide) (represents_ofAffine generator_isOnCurve)

theorem addOrderOf_base : addOrderOf base = order :=
  addOrderOf_eq_prime order_nsmul_base (Point.some_ne_zero _)

end Curve

end CashWallet
