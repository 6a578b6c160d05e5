import CashWallet.Key.Private
import CashWallet.Signature.Basic
import CashWallet.Signature.Nonce

/-!
# Signing and verifying digests

The elliptic-curve digital signature over 32-byte digests, with deterministic nonces. Signing
yields the smaller of the two possible values of `s`, and verification accepts no other.
-/

namespace CashWallet

/-- The scalar that a digest stands for. -/
def digestScalar (digest : Bytes) : Nat :=
  Endian.ofBig digest % Curve.order

/-- The abscissa of a multiple of the generator, as a scalar. -/
def Curve.Jacobian.abscissa? (p : Curve.Jacobian) : Option Nat :=
  p.toAffine?.map fun q => q.x % Curve.order

namespace Signature

/-- The signature with the smaller of the two values of `s`. -/
def normalizeS (sig : Signature) : Signature :=
  if sig.s ≤ Curve.order / 2 then sig
  else
    { sig with
      s := Curve.order - sig.s
      s_pos := Nat.sub_pos_of_lt sig.s_lt
      s_lt := Nat.sub_lt (Nat.lt_trans sig.s_pos sig.s_lt) sig.s_pos }

end Signature

/-- Sign a digest with a given nonce. -/
def PrivateKey.signWithNonce? (key : PrivateKey) (digest : Bytes) (nonce : Nat) :
    Option Signature := do
  let r ← ((Curve.Jacobian.ofAffine Curve.generator).mul nonce).abscissa?
  let sum := digestScalar digest + r * key.scalar
  let s := Modular.inverse Curve.order nonce * sum % Curve.order
  let sig ← Signature.ofScalars? r s
  return sig.normalizeS

/-- Sign a digest. -/
def PrivateKey.sign (key : PrivateKey) (digest : Bytes) : Except CodecError Signature :=
  Signature.orFault ((Nonce.forDigest? key.scalar digest).bind (key.signWithNonce? digest))

/-- The point that a valid signature reproduces. -/
def PublicKey.recombine (key : PublicKey) (digest : Bytes) (sig : Signature) : Curve.Jacobian :=
  let w := Modular.inverse Curve.order sig.s
  let u1 := digestScalar digest * w % Curve.order
  let u2 := sig.r * w % Curve.order
  ((Curve.Jacobian.ofAffine Curve.generator).mul u1).add
    ((Curve.Jacobian.ofAffine key.point).mul u2)

/-- Whether a signature over a digest is this key's. -/
def PublicKey.verify (key : PublicKey) (digest : Bytes) (sig : Signature) : Bool :=
  sig.isLowS && (key.recombine digest sig).abscissa? == some sig.r

end CashWallet
