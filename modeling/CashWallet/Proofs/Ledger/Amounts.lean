import CashWallet.Ledger.Amount
import CashWallet.Proofs.Number.Decimal

/-!
# Amounts are converted exactly

A text denotes the number of the numeral that it spells, blank space around it left out. Counted in
satoshis, the integer part of that number is taken. A number below zero is refused even if its
integer part would be zero, and so is a number beyond 64 bits and a text that denotes none.
-/

namespace CashWallet.Ledger

variable {text : String} {v : ℚ} {d : Decimal} {unit : AmountUnit}

/-- The text spells a numeral within bounds, and this is the number that the numeral stands for. -/
def Denotes (text : String) (v : ℚ) : Prop :=
  ∃ n : Numeral, n.Spells (Text.trimChars text.toList) ∧ n.InRange ∧ n.value = v

/-- What becomes of a text, counted in a unit that is some places smaller. -/
structure ConvertsExactly (text : String) (places : Nat) (result : Except Mismatch UInt64) :
    Prop where
  whole : ∀ v, Denotes text v → 0 ≤ v → ⌊v * 10 ^ places⌋ < 2 ^ 64 →
    ∃ sats, result = .ok sats ∧ sats.toNat = ⌊v * 10 ^ places⌋
  negative : ∀ v, Denotes text v → v < 0 → result = .error (.negativeAmount text)
  beyond : ∀ v, Denotes text v → 2 ^ 64 ≤ ⌊v * 10 ^ places⌋ → result = .error (.amountRange text)
  senseless : (∀ v, ¬ Denotes text v) → ∃ fault, result = .error (.amountText text fault)

theorem denotes_iff :
    Denotes text v ↔ ∃ d, Decimal.parse (Text.trim text) = .ok d ∧ d.value = v := by
  constructor
  · rintro ⟨n, hspells, hrange, rfl⟩
    rw [← Text.toList_trim] at hspells
    exact ⟨n.decimal, Decimal.parse_eq_ok_iff.2 ⟨n, hspells, hrange, rfl⟩, n.value_decimal⟩
  · rintro ⟨d, hparse, rfl⟩
    obtain ⟨n, hspells, hrange, rfl⟩ := Decimal.parse_eq_ok_iff.1 hparse
    rw [Text.toList_trim] at hspells
    exact ⟨n, hspells, hrange, n.value_decimal.symm⟩

/-! ## A text that is read as a decimal -/

theorem decimalToSatoshis_negative (hparse : Decimal.parse (Text.trim text) = .ok d)
    (h : d.value < 0) : decimalToSatoshis text unit = .error (.negativeAmount text) := by
  have hsign : d.coefficient < 0 := by
    rw [← Int.not_le, ← Decimal.value_nonneg_iff, not_le]
    exact h
  rw [decimalToSatoshis, hparse]
  exact if_pos hsign

theorem decimalToSatoshis_nonneg (hparse : Decimal.parse (Text.trim text) = .ok d)
    (h : 0 ≤ d.value) : decimalToSatoshis text unit =
      (d.floorScaled? unit.places maxAmount).elim (.error (.amountRange text))
        (.ok ∘ UInt64.ofNat) := by
  have hsign : ¬ d.coefficient < 0 := Int.not_lt.2 (Decimal.value_nonneg_iff.1 h)
  rw [decimalToSatoshis, hparse]
  dsimp only
  rw [if_neg hsign]
  cases d.floorScaled? unit.places maxAmount <;> rfl

theorem decimalToSatoshis_whole (hparse : Decimal.parse (Text.trim text) = .ok d)
    (h : 0 ≤ d.value) (hfits : ⌊d.value * 10 ^ unit.places⌋ < 2 ^ 64) :
    ∃ sats, decimalToSatoshis text unit = .ok sats ∧
      sats.toNat = ⌊d.value * 10 ^ unit.places⌋ := by
  have hpart : 0 ≤ ⌊d.value * 10 ^ unit.places⌋ := Int.floor_nonneg.2 (by positivity)
  obtain ⟨m, hm⟩ := Int.eq_ofNat_of_zero_le hpart
  rw [hm] at hfits
  have hlimit : m ≤ maxAmount := by
    have hsize : maxAmount = 2 ^ 64 - 1 := rfl
    omega
  have hfloor : d.floorScaled? unit.places maxAmount = some m :=
    (Decimal.floorScaled?_eq_some_iff (Decimal.value_nonneg_iff.1 h)).2 ⟨hm, hlimit⟩
  refine ⟨UInt64.ofNat m, ?_, ?_⟩
  · rw [decimalToSatoshis_nonneg hparse h, hfloor]
    rfl
  · rw [hm, UInt64.toNat_ofNat_of_lt' (Int.ofNat_lt.1 hfits)]

theorem decimalToSatoshis_beyond (hparse : Decimal.parse (Text.trim text) = .ok d)
    (h : 2 ^ 64 ≤ ⌊d.value * 10 ^ unit.places⌋) :
    decimalToSatoshis text unit = .error (.amountRange text) := by
  have hnonneg : 0 ≤ d.value := by
    have hpower : (0 : ℚ) < 10 ^ unit.places := by positivity
    have hpart : 0 ≤ ⌊d.value * 10 ^ unit.places⌋ := by omega
    exact (mul_nonneg_iff_of_pos_right hpower).1 (Int.floor_nonneg.1 hpart)
  have hfloor : d.floorScaled? unit.places maxAmount = none := by
    rw [Option.eq_none_iff_forall_ne_some]
    intro m hm
    obtain ⟨hpart, hlimit⟩ :=
      (Decimal.floorScaled?_eq_some_iff (Decimal.value_nonneg_iff.1 hnonneg)).1 hm
    have hsize : maxAmount = 2 ^ 64 - 1 := rfl
    omega
  rw [decimalToSatoshis_nonneg hparse hnonneg, hfloor]
  rfl

/-- Every text is converted exactly, in either unit. -/
theorem decimalToSatoshis_exact (text : String) (unit : AmountUnit) :
    ConvertsExactly text unit.places (decimalToSatoshis text unit) where
  whole v hv h hfits := by
    obtain ⟨d, hparse, rfl⟩ := denotes_iff.1 hv
    exact decimalToSatoshis_whole hparse h hfits
  negative v hv h := by
    obtain ⟨d, hparse, rfl⟩ := denotes_iff.1 hv
    exact decimalToSatoshis_negative hparse h
  beyond v hv h := by
    obtain ⟨d, hparse, rfl⟩ := denotes_iff.1 hv
    exact decimalToSatoshis_beyond hparse h
  senseless h := by
    cases hparse : Decimal.parse (Text.trim text) with
    | error fault => exact ⟨fault, by rw [decimalToSatoshis, hparse]⟩
    | ok d => exact absurd (denotes_iff.2 ⟨d, hparse, rfl⟩) (h d.value)

/-! ## Numbers and texts -/

/-- A number with as many places as one unit has is taken as it is. -/
theorem decimalToSatoshis_of_scale_eq {n : UInt64}
    (hparse : Decimal.parse (Text.trim text) = .ok ⟨n.toNat, unit.places⟩) :
    decimalToSatoshis text unit = .ok n := by
  have hfloor : Decimal.floorScaled? ⟨n.toNat, unit.places⟩ unit.places maxAmount = some n.toNat :=
    Decimal.floorScaled?_of_scale_eq rfl rfl (toNat_le_maxAmount n)
  have hsign : ¬ (n.toNat : Int) < 0 := by omega
  rw [decimalToSatoshis, hparse]
  simp only [if_neg hsign, hfloor, UInt64.ofNat_toNat]

/-- A natural number is worth as much as a number as it is as a text. -/
theorem amount_natural (n : UInt64) (unit : AmountUnit) :
    amount unit (some (.number (.natural n))) = amount unit (some (.string (toString n))) := by
  cases unit with
  | coins => rfl
  | satoshis =>
      have htrim : Text.trim (toString n) = toString n :=
        Text.trim_ofList fun c hc => Text.isBlank_of_isDigit (Decimal.isDigit_toDigits _ c hc)
      have hparse : Decimal.parse (Text.trim (toString n)) =
          .ok ⟨n.toNat, AmountUnit.satoshis.places⟩ := by
        rw [htrim]
        exact Decimal.parse_toString n.toNat
      have hread : decimalToSatoshis (toString n) .satoshis = .ok n :=
        decimalToSatoshis_of_scale_eq hparse
      rw [amount, amount, hread]

/-- Amounts in texts are converted exactly in either unit, and natural numbers as their texts. -/
theorem amounts_exact (text : String) (n : UInt64) :
    ConvertsExactly text 8 (coinsToSatoshis text) ∧
      ConvertsExactly text 8 (amount .coins (some (.string text))) ∧
      ConvertsExactly text 0 (amount .satoshis (some (.string text))) ∧
      ∀ unit, amount unit (some (.number (.natural n))) =
        amount unit (some (.string (toString n))) :=
  ⟨decimalToSatoshis_exact text .coins, decimalToSatoshis_exact text .coins,
    decimalToSatoshis_exact text .satoshis, amount_natural n⟩

/-- A numeral with a sign, an underscore, a point and an exponent. -/
def scoredNumeral : Numeral where
  sign := .plus
  whole := ['1', '_', '0']
  fraction := some ['5']
  exponent := some ⟨'e', .minus, ['1'], rfl, by decide, List.forall_iff_forall_mem.1 (by decide)⟩
  scored := ⟨⟨'1', _, rfl, rfl⟩, List.forall_iff_forall_mem.1 (by decide)⟩

theorem denotes_scoredNumeral : Denotes "+1_0.5e-1" (21 / 20) := by
  have hvalue : scoredNumeral.value = 21 / 20 := by
    have hcoefficient : scoredNumeral.coefficient = 105 := by decide
    have hscale : scoredNumeral.power - scoredNumeral.places = -2 := by decide
    rw [Numeral.value, hcoefficient, hscale]
    norm_num
  exact ⟨scoredNumeral, ⟨_, .usual, by decide⟩, ⟨by decide, by decide⟩, hvalue⟩

theorem amounts_exact_scored : Denotes "+1_0.5e-1" (21 / 20) ∧
    ∃ sats, coinsToSatoshis "+1_0.5e-1" = .ok sats ∧ (sats.toNat : Int) = 105000000 := by
  have hfloor : ⌊(21 / 20 : ℚ) * 10 ^ 8⌋ = 105000000 := by norm_num
  have hfits : ⌊(21 / 20 : ℚ) * 10 ^ 8⌋ < 2 ^ 64 := by
    rw [hfloor]
    decide
  obtain ⟨sats, hsats, hvalue⟩ :=
    (amounts_exact "+1_0.5e-1" 0).1.whole _ denotes_scoredNumeral (by norm_num) hfits
  exact ⟨denotes_scoredNumeral, sats, hsats, hvalue.trans hfloor⟩

/-- A zero whose exponent is beyond the bounds. -/
def farZero : Numeral where
  sign := .none
  whole := ['0']
  fraction := none
  exponent := some ⟨'e', .none, "9223372036854775809".toList, rfl, by decide,
    List.forall_iff_forall_mem.1 (by decide)⟩
  scored := ⟨⟨'0', _, rfl, rfl⟩, List.forall_iff_forall_mem.1 (by decide)⟩

/-- A point in front has a digit behind it in the usual spelling. -/
theorem isDigit_of_pointFirst {n : Numeral} {c : Char} {rest : List Char}
    (h : n.chars = '.' :: c :: rest) : c.isDigit = true := by
  obtain ⟨sign, whole, fraction, exponent, scored⟩ := n
  obtain ⟨first, behind, hfirst, hdigit⟩ := scored.first
  have hsign : sign = .none := by
    cases sign with
    | none => rfl
    | plus => cases h
    | minus => cases h
  subst hsign
  cases whole with
  | cons d whole =>
      have hpoint : d = '.' := (List.cons.inj h).1
      have hd : d = first := (List.cons.inj hfirst).1
      rw [← hd, hpoint] at hdigit
      cases hdigit
  | nil =>
      cases fraction with
      | none => cases hfirst
      | some fraction =>
          rw [List.nil_append, Option.getD_some] at hfirst
          subst hfirst
          have hc : first = c := (List.cons.inj (List.cons.inj h).2).1
          rwa [← hc]

/-- A zero is refused for its exponent alone. A sign behind the point is taken, and so is an
underscore at the end. -/
theorem coins_unusual :
    (farZero.chars = "0e9223372036854775809".toList ∧ farZero.value = 0 ∧
      coinsToSatoshis "0e9223372036854775809" = .error (.amountText "0e9223372036854775809"
        (.exponentRange "0e9223372036854775809"))) ∧
      ((∀ n : Numeral, n.chars ≠ ".+5".toList) ∧ coinsToSatoshis ".+5" = .ok 5000000) ∧
      coinsToSatoshis "1_" = .ok 100000000 := by
  have hzero : farZero.value = 0 := by
    have hcoefficient : farZero.coefficient = 0 := by decide
    rw [Numeral.value, hcoefficient, Int.cast_zero, zero_mul]
  have hsigned (n : Numeral) : n.chars ≠ ".+5".toList := by
    intro h
    cases isDigit_of_pointFirst h
  exact ⟨⟨by decide, hzero, rfl⟩, ⟨hsigned, rfl⟩, rfl⟩

end CashWallet.Ledger
