import CashWallet.Curve.Modular

/-!
# The curve secp256k1

The points with `y² = x³ + 7` over the field of `fieldPrime` elements. Sums are computed in
Jacobian coordinates, where `(x, y, z)` stands for `(x / z², y / z³)` and `z = 0` for the point at
infinity.
-/

namespace CashWallet.Curve

def fieldPrime : Nat :=
  0xfffffffffffffffffffffffffffffffffffffffffffffffffffffffefffffc2f

/-- The number of points of the curve. -/
def order : Nat :=
  0xfffffffffffffffffffffffffffffffebaaedce6af48a03bbfd25e8cd0364141

/-- A point other than infinity. -/
structure Affine where
  x : Nat
  y : Nat
  deriving DecidableEq, Repr

def generator : Affine where
  x := 0x79be667ef9dcbbac55a06295ce870b07029bfcdb2dce28d959f2815b16f81798
  y := 0x483ada7726a3c4655da4fbfc0e1108a8fd17b448a68554199c47d08ffb10d4b8

/-- The right-hand side of the curve equation. -/
def cubic (x : Nat) : Nat :=
  (x * x * x + 7) % fieldPrime

/-- Both coordinates are reduced and satisfy the equation. -/
def Affine.isOnCurve (p : Affine) : Bool :=
  p.x < fieldPrime && p.y < fieldPrime && p.y * p.y % fieldPrime == cubic p.x

/-- The point with a given abscissa whose ordinate has the wanted parity. -/
def Affine.ofX? (x : Nat) (odd : Bool) : Option Affine :=
  if x < fieldPrime then
    let root := Modular.pow fieldPrime (cubic x) ((fieldPrime + 1) / 4)
    if root * root % fieldPrime = cubic x then
      some ⟨x, if (root % 2 == 1) == odd then root else (fieldPrime - root) % fieldPrime⟩
    else none
  else none

structure Jacobian where
  x : Nat
  y : Nat
  z : Nat
  deriving DecidableEq, Repr

namespace Jacobian

def infinity : Jacobian := ⟨1, 1, 0⟩

def ofAffine (p : Affine) : Jacobian := ⟨p.x, p.y, 1⟩

def toAffine? (p : Jacobian) : Option Affine :=
  if p.z = 0 then none
  else
    let w := Modular.inverse fieldPrime p.z
    let w2 := w * w % fieldPrime
    some ⟨p.x * w2 % fieldPrime, p.y * w2 % fieldPrime * w % fieldPrime⟩

def double (p : Jacobian) : Jacobian :=
  if p.z = 0 ∨ p.y = 0 then infinity
  else
    let yy := p.y * p.y % fieldPrime
    let s := 4 * p.x * yy % fieldPrime
    let m := 3 * p.x * p.x % fieldPrime
    let x := Modular.sub fieldPrime (m * m) (2 * s % fieldPrime)
    let y := Modular.sub fieldPrime (m * Modular.sub fieldPrime s x)
      (8 * yy * yy % fieldPrime)
    ⟨x, y, 2 * p.y * p.z % fieldPrime⟩

def add (p q : Jacobian) : Jacobian :=
  if p.z = 0 then q
  else if q.z = 0 then p
  else
    let pzz := p.z * p.z % fieldPrime
    let qzz := q.z * q.z % fieldPrime
    let u1 := p.x * qzz % fieldPrime
    let u2 := q.x * pzz % fieldPrime
    let s1 := p.y * qzz % fieldPrime * q.z % fieldPrime
    let s2 := q.y * pzz % fieldPrime * p.z % fieldPrime
    if u1 = u2 then if s1 = s2 then double p else infinity
    else
      let h := Modular.sub fieldPrime u2 u1
      let r := Modular.sub fieldPrime s2 s1
      let hh := h * h % fieldPrime
      let hhh := h * hh % fieldPrime
      let v := u1 * hh % fieldPrime
      let x := Modular.sub fieldPrime (r * r) ((hhh + 2 * v) % fieldPrime)
      let y := Modular.sub fieldPrime (r * Modular.sub fieldPrime v x)
        (s1 * hhh % fieldPrime)
      ⟨x, y, p.z * q.z % fieldPrime * h % fieldPrime⟩

/-- The multiple of a point by a number below `2 ^ bits`. -/
def mulUpTo : Nat → Nat → Jacobian → Jacobian
  | 0, _, _ => infinity
  | bits + 1, k, p =>
    let rest := mulUpTo bits (k / 2) (double p)
    if k % 2 = 1 then add p rest else rest

/-- The multiple of a point by a number below the order. -/
def mul (k : Nat) (p : Jacobian) : Jacobian :=
  mulUpTo 256 k p

end Jacobian

end CashWallet.Curve
