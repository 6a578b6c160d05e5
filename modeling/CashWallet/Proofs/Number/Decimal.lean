import CashWallet.Proofs.Number.Numeral
import CashWallet.Proofs.Number.Scaling
import CashWallet.Proofs.Text.Whitespace

/-!
# Digits are read exactly

Digits, perhaps with a point among them, are read as the number that they write, with as many places
as stand behind the point. A decimal that has the places that are asked for is taken as it is, up to
the limit.
-/

namespace CashWallet

theorem Text.isBlank_of_isDigit {c : Char} (h : c.isDigit = true) : isBlank c = false := by
  obtain ⟨hlow, hhigh⟩ := Decimal.isDigit_iff.1 h
  exact isBlank_of_visible (by omega) (by omega)

namespace Decimal

/-- Nothing is passed over among digits. -/
theorem filter_score {cs : List Char} (h : ∀ c ∈ cs, c.isDigit = true) :
    cs.filter (· != '_') = cs := by
  rw [List.filter_eq_self]
  intro c hc
  simpa using ne_of_isDigit (h c hc) (d := '_') rfl

theorem isScored_digits {cs : List Char} (hne : cs ≠ []) (h : ∀ c ∈ cs, c.isDigit = true) :
    IsScored cs := by
  obtain ⟨c, rest, rfl⟩ := List.exists_cons_of_ne_nil hne
  exact ⟨⟨c, rest, rfl, h c List.mem_cons_self⟩, fun d hd => .inl (h d hd)⟩

/-- Digits with at most one point stand for the number without the point, divided by a power of
ten. -/
theorem parse_digits {whole : List Char} (fraction : Option (List Char)) (hne : whole ≠ [])
    (hdigits : ∀ c ∈ whole ++ fraction.getD [], c.isDigit = true) {places : Nat}
    (hlength : (fraction.getD []).length = places) (hplaces : places ≤ Int64.maxValue.toInt) :
    parse (String.ofList (whole ++ fraction.elim [] ('.' :: ·))) =
      .ok ⟨Nat.ofDigitChars 10 (whole ++ fraction.getD []) 0, places⟩ := by
  have hscored := isScored_digits (List.append_ne_nil_of_left_ne_nil hne (fraction.getD [])) hdigits
  have hfraction := (List.forall_mem_append.1 hdigits).2
  have hpower : (-2 ^ 127 : Int) ≤ 0 ∧ (0 : Int) < 2 ^ 127 := by decide
  have hmin : Int64.minValue.toInt ≤ 0 := by decide
  rw [parse_eq_ok_iff, String.toList_ofList]
  refine ⟨⟨.none, whole, fraction, none, hscored⟩, ⟨_, .usual, (List.append_nil _).symm⟩, ?_, ?_⟩
  · refine ⟨hpower, ?_⟩
    rw [Numeral.places, filter_score hfraction, hlength, Numeral.power, Option.elim_none]
    omega
  · rw [Numeral.decimal, Numeral.coefficient, scoredValue, Numeral.digits, filter_score hdigits,
      Numeral.places, filter_score hfraction, hlength, Numeral.power, Option.elim_none,
      Int.sub_zero]
    rfl

/-- A number that is written with so many of its digits behind the point is read as it is. -/
theorem parse_toDigits (n : Nat) {places : Nat} (hplaces : 0 < places)
    (hlimit : (places : Int) ≤ Int64.maxValue.toInt) :
    parse (String.ofList (Nat.toDigits 10 (n / Nat.pow 10 places) ++
      '.' :: (Nat.toDigits 10 (n % Nat.pow 10 places)).leftpad places '0')) = .ok ⟨n, places⟩ := by
  have hlength := length_padded hplaces (Nat.mod_lt n (Nat.pow_pos (by decide : 0 < 10)))
  have hread : Nat.ofDigitChars 10 (Nat.toDigits 10 (n / Nat.pow 10 places) ++
      (Nat.toDigits 10 (n % Nat.pow 10 places)).leftpad places '0') 0 = n := by
    rw [Nat.ofDigitChars_append, Nat.ofDigitChars_ten_toDigits,
      Nat.ofDigitChars_eq_ofDigitChars_zero, hlength, ofDigitChars_padded]
    exact Nat.div_add_mod n (Nat.pow 10 places)
  have hdigits : ∀ c ∈ Nat.toDigits 10 (n / Nat.pow 10 places) ++
      (Nat.toDigits 10 (n % Nat.pow 10 places)).leftpad places '0', c.isDigit = true :=
    List.forall_mem_append.2 ⟨isDigit_toDigits _, isDigit_padded _ _⟩
  generalize (Nat.toDigits 10 (n % Nat.pow 10 places)).leftpad places '0' = fraction at *
  have hparse := parse_digits (some fraction) Nat.toDigits_ne_nil hdigits hlength hlimit
  rwa [Option.getD_some, hread] at hparse

/-- A natural number is read from its digits. -/
theorem parse_toString (n : Nat) : parse (toString n) = .ok ⟨n, 0⟩ := by
  have hdigits : ∀ c ∈ Nat.toDigits 10 n ++ [], c.isDigit = true := by
    rw [List.append_nil]
    exact isDigit_toDigits n
  have hparse := parse_digits none Nat.toDigits_ne_nil hdigits rfl (by decide)
  rwa [Option.elim_none, Option.getD_none, List.append_nil, Nat.ofDigitChars_ten_toDigits] at hparse

/-- A decimal with as many places as one unit has is taken as it is, up to the limit. -/
theorem floorScaled?_of_scale_eq {d : Decimal} {n places limit : Nat}
    (hcoefficient : d.coefficient = n) (hscale : d.scale = places) (hn : n ≤ limit) :
    d.floorScaled? places limit = some n := by
  have hvalue : d.value * 10 ^ places = n := by
    rw [value_mul_pow, hcoefficient, hscale, Int.sub_self, zpow_zero, mul_one, Int.cast_natCast]
  rw [floorScaled?_eq_some_iff (by omega), hvalue]
  exact ⟨Int.floor_natCast n, hn⟩

end Decimal

end CashWallet
