import CashWallet.Curve.Point
import Mathlib.NumberTheory.LucasPrimality

/-!
# The moduli of the curve are prime

Lucas's test: a number is prime if some root has, modulo it, exactly the order that a primitive
root of a prime has. For the test the prime factors of the number before it must be known, so the
factors come first, each with its own test.
-/

namespace CashWallet

namespace Modular

theorem cast_pow (m b e : Nat) : ((pow m b e : Nat) : ZMod m) = (b : ZMod m) ^ e := by
  rw [pow_eq, Nat.pow_eq, ZMod.natCast_mod, Nat.cast_pow]

theorem natCast_pow_eq_one_iff {m b e : Nat} (h : 1 < m) :
    (b : ZMod m) ^ e = 1 ↔ pow m b e = 1 := by
  rw [← cast_pow, ← Nat.cast_one, ZMod.natCast_eq_natCast_iff', pow_eq, Nat.mod_mod,
    Nat.mod_eq_of_lt h]

/-- What shows a number to be prime: a primitive root, and the factors of the number before it. -/
structure LucasTest where
  number : Nat
  root : Nat
  factors : List Nat

/-- The test holds, as far as the factors are among some primes. -/
def LucasTest.holds (primes : List Nat) (c : LucasTest) : Bool :=
  c.factors.prod + 1 == c.number && c.factors.all primes.contains &&
    pow c.number c.root c.factors.prod == 1 &&
    c.factors.all fun q => pow c.number c.root (c.factors.prod / q) != 1

/-- Each test holds, with the numbers of those before it for primes. -/
def testsHold : List Nat → List LucasTest → Bool
  | _, [] => true
  | primes, c :: rest => c.holds primes && testsHold (c.number :: primes) rest

theorem prime_of_holds {primes : List Nat} {c : LucasTest} (hprimes : ∀ q ∈ primes, q.Prime)
    (h : c.holds primes = true) : c.number.Prime := by
  simp only [LucasTest.holds, Bool.and_eq_true, beq_iff_eq, List.all_eq_true, bne_iff_ne] at h
  obtain ⟨⟨⟨hnumber, hfactors⟩, hroot⟩, hsmaller⟩ := h
  have hpred : c.number - 1 = c.factors.prod := by omega
  have hpos : 0 < c.factors.prod :=
    List.prod_pos fun q hq => (hprimes q (List.contains_iff_mem.1 (hfactors q hq))).pos
  have hone := fun e => natCast_pow_eq_one_iff (b := c.root) (e := e) (by omega : 1 < c.number)
  apply lucas_primality c.number c.root
  · rw [hpred, hone]
    exact hroot
  · intro q hq hdvd
    rw [hpred] at hdvd ⊢
    obtain ⟨r, hr, hqr⟩ := (Prime.dvd_prod_iff hq.prime).1 hdvd
    have hrprime := hprimes r (List.contains_iff_mem.1 (hfactors r hr))
    rw [(Nat.prime_dvd_prime_iff_eq hq hrprime).1 hqr, Ne, hone]
    exact hsmaller r hr

theorem prime_of_testsHold {primes : List Nat} {tests : List LucasTest}
    (hprimes : ∀ q ∈ primes, q.Prime) (h : testsHold primes tests = true) :
    ∀ c ∈ tests, c.number.Prime := by
  induction tests generalizing primes with
  | nil => exact nofun
  | cons c rest ih =>
      obtain ⟨hc, hrest⟩ := Bool.and_eq_true_iff.1 h
      have hprime := prime_of_holds hprimes hc
      intro d hd
      rcases List.mem_cons.1 hd with rfl | hd
      · exact hprime
      · apply ih _ hrest d hd
        intro q hq
        rcases List.mem_cons.1 hq with rfl | hq
        · exact hprime
        · exact hprimes q hq

end Modular

namespace Curve

/-- The tests for the two moduli, behind those for what they rest on. -/
def moduliTests : List Modular.LucasTest :=
  [⟨3, 2, [2]⟩, ⟨5, 2, [2, 2]⟩, ⟨7, 3, [2, 3]⟩, ⟨11, 2, [2, 5]⟩, ⟨13, 2, [2, 2, 3]⟩,
    ⟨17, 3, [2, 2, 2, 2]⟩, ⟨19, 2, [2, 3, 3]⟩, ⟨23, 5, [2, 11]⟩, ⟨29, 2, [2, 2, 7]⟩,
    ⟨31, 3, [2, 3, 5]⟩, ⟨37, 2, [2, 2, 3, 3]⟩, ⟨41, 6, [2, 2, 2, 5]⟩, ⟨53, 2, [2, 2, 13]⟩,
    ⟨59, 2, [2, 29]⟩, ⟨67, 2, [2, 3, 11]⟩, ⟨73, 5, [2, 2, 2, 3, 3]⟩, ⟨83, 2, [2, 41]⟩,
    ⟨97, 5, [2, 2, 2, 2, 2, 3]⟩, ⟨101, 2, [2, 2, 5, 5]⟩, ⟨103, 5, [2, 3, 17]⟩,
    ⟨109, 6, [2, 2, 3, 3, 3]⟩, ⟨113, 3, [2, 2, 2, 2, 7]⟩, ⟨131, 2, [2, 5, 13]⟩,
    ⟨149, 2, [2, 2, 37]⟩, ⟨199, 3, [2, 3, 3, 11]⟩, ⟨239, 7, [2, 7, 17]⟩,
    ⟨271, 6, [2, 3, 3, 3, 5]⟩, ⟨293, 2, [2, 2, 73]⟩, ⟨419, 2, [2, 11, 19]⟩, ⟨443, 2, [2, 13, 17]⟩,
    ⟨461, 2, [2, 2, 5, 23]⟩, ⟨631, 3, [2, 3, 3, 5, 7]⟩, ⟨797, 2, [2, 2, 199]⟩, ⟨887, 5, [2, 443]⟩,
    ⟨971, 6, [2, 5, 97]⟩, ⟨1373, 2, [2, 2, 7, 7, 7]⟩, ⟨1409, 3, [2, 2, 2, 2, 2, 2, 2, 11]⟩,
    ⟨1627, 3, [2, 3, 271]⟩, ⟨1871, 14, [2, 5, 11, 17]⟩, ⟨2011, 3, [2, 3, 5, 67]⟩,
    ⟨2621, 2, [2, 2, 5, 131]⟩, ⟨2657, 3, [2, 2, 2, 2, 2, 83]⟩, ⟨2731, 3, [2, 3, 5, 7, 13]⟩,
    ⟨2861, 2, [2, 2, 5, 11, 13]⟩, ⟨4051, 10, [2, 3, 3, 3, 3, 5, 5]⟩, ⟨4423, 3, [2, 3, 11, 67]⟩,
    ⟨5323, 5, [2, 3, 887]⟩, ⟨7723, 3, [2, 3, 3, 3, 11, 13]⟩, ⟨9349, 2, [2, 2, 3, 19, 41]⟩,
    ⟨13441, 11, [2, 2, 2, 2, 2, 2, 2, 3, 5, 7]⟩, ⟨16699, 3, [2, 3, 11, 11, 23]⟩,
    ⟨20113, 10, [2, 2, 2, 2, 3, 419]⟩, ⟨24809, 6, [2, 2, 2, 7, 443]⟩, ⟨28181, 2, [2, 2, 5, 1409]⟩,
    ⟨41201, 3, [2, 2, 2, 2, 5, 5, 103]⟩, ⟨85831, 3, [2, 3, 5, 2861]⟩,
    ⟨96557, 2, [2, 2, 101, 239]⟩, ⟨120233, 3, [2, 2, 2, 7, 19, 113]⟩,
    ⟨305873, 3, [2, 2, 2, 2, 7, 2731]⟩, ⟨1206781, 10, [2, 2, 3, 5, 20113]⟩,
    ⟨1627771, 3, [2, 3, 5, 29, 1871]⟩, ⟨4681609, 23, [2, 2, 2, 3, 97, 2011]⟩,
    ⟨7240687, 3, [2, 3, 1206781]⟩, ⟨13331831, 13, [2, 5, 971, 1373]⟩,
    ⟨44706919, 6, [2, 3, 797, 9349]⟩, ⟨107590001, 3, [2, 2, 2, 2, 5, 5, 5, 5, 7, 29, 53]⟩,
    ⟨545358713, 5, [2, 2, 2, 41, 59, 28181]⟩, ⟨297159362677, 2, [2, 2, 3, 3, 11, 461, 1627771]⟩,
    ⟨107361793816595537, 3, [2, 2, 2, 2, 16699, 85831, 4681609]⟩,
    ⟨173378833005251801, 6, [2, 2, 2, 5, 5, 2621, 24809, 13331831]⟩,
    ⟨174723607534414371449, 3, [2, 2, 2, 17, 59, 4051, 120233, 44706919]⟩,
    ⟨22149492674086928081353, 5, [2, 2, 2, 3, 5323, 173378833005251801]⟩,
    ⟨132896956044521568488119, 6, [2, 3, 22149492674086928081353]⟩,
    ⟨29047611873442575647497758179, 2, [2, 293, 305873, 545358713, 297159362677]⟩,
    ⟨341948486974166000522343609283189, 2, [2, 2, 3, 3, 3, 109, 29047611873442575647497758179]⟩,
    ⟨255515944373312847190720520512484175977, 3, [2, 2, 2, 7, 7, 11, 1627, 2657, 4423, 41201,
      96557, 7240687, 107590001]⟩,
    ⟨205115282021455665897114700593932402728804164701536103180137503955397371, 10, [2, 3, 5, 29,
      29, 31, 7723, 132896956044521568488119, 255515944373312847190720520512484175977]⟩,
    ⟨order, 7, [2, 2, 2, 2, 2, 2, 3, 149, 631, 107361793816595537, 174723607534414371449,
      341948486974166000522343609283189]⟩,
    ⟨fieldPrime, 3, [2, 3, 7, 13441,
      205115282021455665897114700593932402728804164701536103180137503955397371]⟩]

theorem moduliTests_hold : Modular.testsHold [2] moduliTests = true := by
  decide +kernel

theorem prime_of_moduliTest {c : Modular.LucasTest} (h : c ∈ moduliTests) : c.number.Prime :=
  Modular.prime_of_testsHold (fun q hq => by rw [List.mem_singleton.1 hq]; exact Nat.prime_two)
    moduliTests_hold c h

instance fieldPrime_prime : Fact fieldPrime.Prime :=
  ⟨prime_of_moduliTest (c := moduliTests.get ⟨78, by decide⟩) (List.get_mem _ _)⟩

instance order_prime : Fact order.Prime :=
  ⟨prime_of_moduliTest (c := moduliTests.get ⟨77, by decide⟩) (List.get_mem _ _)⟩

end Curve

end CashWallet
