import CashWallet.Curve.Point
import CashWallet.Hash.Digest

/-!
# Deterministic nonces

A generator keyed by the private scalar and the digest yields candidates of 32 bytes until one is a
scalar of the curve. The digest enters as it is, without reduction modulo the order.
-/

namespace CashWallet.Nonce

open CashWallet.Hash

structure Generator where
  key : Bytes
  value : Bytes

/-- Mix some data in behind a counter byte. -/
def Generator.mix (g : Generator) (counter : UInt8) (data : Bytes) : Generator :=
  let key := hmac g.key (g.value ++ counter :: data)
  ⟨key, hmac key g.value⟩

def Generator.seeded (scalar : Nat) (digest : Bytes) : Generator :=
  let data := Endian.toBig 32 scalar ++ digest
  let start : Generator := ⟨List.replicate 32 0, List.replicate 32 1⟩
  (start.mix 0 data).mix 1 data

/-- The first candidate in range among the next `attempts`. -/
def Generator.pick? : Nat → Generator → Option Nat
  | 0, _ => none
  | attempts + 1, g =>
    let value := hmac g.key g.value
    let candidate := Endian.ofBig value
    if 0 < candidate ∧ candidate < Curve.order then some candidate
    else pick? attempts (Generator.mix ⟨g.key, value⟩ 0 [])

/-- One candidate in `2 ^ 127` is out of range, so a hundred never run out. -/
def forDigest? (scalar : Nat) (digest : Bytes) : Option Nat :=
  (Generator.seeded scalar digest).pick? 100

end CashWallet.Nonce
