import CashWallet.Proofs.Number.Integer
import CashWallet.Proofs.Number.Scaling
import Mathlib.Data.List.TakeWhile

/-!
# Decimal texts

A numeral has a sign, digits with at most one point and with underscores behind the first of them,
and an exponent. Exactly the texts that spell a numeral are read, as long as its exponent is within
bounds, and each is read as the number that the numeral stands for. A text may also have its sign
behind a point in front of all digits; the sign then counts as a place.
-/

namespace CashWallet

open Results

/-! ## Parts of a numeral -/

/-- Digits with underscores behind the first of them. -/
structure IsScored (cs : List Char) : Prop where
  first : ∃ c rest, cs = c :: rest ∧ c.isDigit = true
  chars : ∀ c ∈ cs, c.isDigit = true ∨ c = '_'

theorem IsScored.head {cs : List Char} (h : IsScored cs) : ∀ c ∈ cs.head?, c.isDigit = true := by
  obtain ⟨c, rest, rfl, hc⟩ := h.first
  rintro _ ⟨⟩
  exact hc

/-- The number that digits write, underscores left out. -/
def scoredValue (cs : List Char) : Nat :=
  Nat.ofDigitChars 10 (cs.filter (· != '_')) 0

/-- A mark, a sign and digits. -/
structure Exponent where
  mark : Char
  sign : Sign
  digits : List Char
  isMark : Decimal.isExponentMark mark = true
  filled : digits ≠ []
  isDigits : ∀ c ∈ digits, c.isDigit = true

namespace Exponent

def chars (e : Exponent) : List Char :=
  e.mark :: (e.sign.chars ++ e.digits)

def value (e : Exponent) : Int :=
  e.sign.apply (Nat.ofDigitChars 10 e.digits 0)

end Exponent

/-- A number in digits, as it is meant: wherever the sign is written, it belongs to the whole. -/
structure Numeral where
  sign : Sign
  whole : List Char
  fraction : Option (List Char)
  exponent : Option Exponent
  scored : IsScored (whole ++ fraction.getD [])

namespace Numeral

def digits (n : Numeral) : List Char :=
  n.whole ++ n.fraction.getD []

/-- How many digits stand behind the point. -/
def places (n : Numeral) : Nat :=
  ((n.fraction.getD []).filter (· != '_')).length

def power (n : Numeral) : Int :=
  n.exponent.elim 0 Exponent.value

def coefficient (n : Numeral) : Int :=
  n.sign.apply (scoredValue n.digits)

/-- The number that a numeral stands for. -/
def value (n : Numeral) : ℚ :=
  n.coefficient * 10 ^ (n.power - n.places)

def pointChars (n : Numeral) : List Char :=
  n.fraction.elim [] ('.' :: ·)

def exponentChars (n : Numeral) : List Char :=
  n.exponent.elim [] Exponent.chars

/-- The usual spelling. -/
def chars (n : Numeral) : List Char :=
  n.sign.chars ++ n.whole ++ n.pointChars ++ n.exponentChars

/-- Characters spell a numeral up to its exponent: in the usual order, or with the sign behind a
leading point, where it takes the place of a zero. -/
inductive SpellsFront (n : Numeral) : List Char → Prop
  | usual : SpellsFront n (n.sign.chars ++ n.whole ++ n.pointChars)
  | pointFirst {rest : List Char} (hsign : n.sign ≠ .none) (hwhole : n.whole = [])
      (hfraction : n.fraction = some ('0' :: rest)) (hrest : IsScored rest) :
      SpellsFront n ('.' :: (n.sign.chars ++ rest))

def Spells (n : Numeral) (cs : List Char) : Prop :=
  ∃ front, n.SpellsFront front ∧ cs = front ++ n.exponentChars

/-- The exponent is within 128 bits, and what is left of it behind the places within 64 bits. -/
structure InRange (n : Numeral) : Prop where
  power : -2 ^ 127 ≤ n.power ∧ n.power < 2 ^ 127
  scale : Int64.minValue.toInt ≤ n.places - n.power ∧ n.places - n.power ≤ Int64.maxValue.toInt

/-- What a numeral is read as. -/
def decimal (n : Numeral) : Decimal :=
  ⟨n.coefficient, n.places - n.power⟩

theorem value_decimal (n : Numeral) : n.decimal.value = n.value := by
  rw [Decimal.value, decimal, neg_sub]
  rfl

end Numeral

/-! ## Coefficients -/

namespace Decimal

theorem isExponentMark_of_isDigit {c : Char} (h : c.isDigit = true) :
    isExponentMark c = false := by
  simp [isExponentMark, ne_of_isDigit h (d := 'e') rfl, ne_of_isDigit h (d := 'E') rfl]

/-- One step of reading a coefficient. -/
def takeDigit (acc : Nat) (c : Char) : Except Fault Nat :=
  if c = '_' then .ok acc
  else
    match Integer.digitValue? c with
    | some d => .ok (10 * acc + d)
    | none => .error (.integer .badDigit)

/-- Digits are read onto a number, underscores passed over. -/
theorem foldlM_takeDigit_eq_ok_iff {cs : List Char} {acc n : Nat} :
    cs.foldlM takeDigit acc = .ok n ↔ (∀ c ∈ cs, c.isDigit = true ∨ c = '_') ∧
      Nat.ofDigitChars 10 (cs.filter (· != '_')) acc = n := by
  induction cs generalizing acc with
  | nil => simp [pure, Except.pure]
  | cons c cs ih =>
      rw [List.foldlM_cons, List.forall_mem_cons, takeDigit]
      by_cases hscore : c = '_'
      · subst hscore
        rw [if_pos rfl, ok_bind, ih]
        simp
      · have hkept : (c :: cs).filter (· != '_') = c :: cs.filter (· != '_') :=
          List.filter_cons_of_pos (by simpa using hscore)
        rw [if_neg hscore, hkept, Nat.ofDigitChars_cons]
        by_cases hc : c.isDigit = true
        · have hvalue : Integer.digitValue? c = some (c.toNat - 48) := if_pos hc
          simp only [hvalue, hc, true_or, true_and]
          exact ih
        · have hvalue : Integer.digitValue? c = none := if_neg hc
          simp [hvalue, hc, hscore, bind, Except.bind]

/-- Digits are read if the first character is one, and the number is the one that they write. -/
theorem coefficientDigits_eq_ok_iff {cs : List Char} {n : Nat} :
    coefficientDigits cs = .ok n ↔ IsScored cs ∧ scoredValue cs = n := by
  unfold coefficientDigits
  split
  · constructor
    · rintro ⟨⟩
    · rintro ⟨⟨⟨c, rest, heq, -⟩, -⟩, -⟩
      cases heq
  · constructor
    · rintro ⟨⟩
    · rintro ⟨⟨⟨c, rest, heq, hc⟩, -⟩, -⟩
      cases heq
      cases hc
  · next hnil hscore =>
      change cs.foldlM takeDigit 0 = .ok n ↔ _
      rw [foldlM_takeDigit_eq_ok_iff]
      constructor
      · rintro ⟨hchars, hvalue⟩
        refine ⟨⟨?_, hchars⟩, hvalue⟩
        cases cs with
        | nil => exact absurd rfl hnil
        | cons c rest =>
            have hc : c ≠ '_' := fun heq => hscore rest (by rw [heq])
            exact ⟨c, rest, rfl, (hchars c List.mem_cons_self).resolve_right hc⟩
      · rintro ⟨⟨-, hchars⟩, hvalue⟩
        exact ⟨hchars, hvalue⟩

/-- A coefficient has at most one sign, in front of its digits. -/
theorem coefficientOf_eq_ok_iff {cs : List Char} {i : Int} :
    coefficientOf cs = .ok i ↔ ∃ (s : Sign) (digits : List Char),
      cs = s.chars ++ digits ∧ IsScored digits ∧ s.apply (scoredValue digits) = i := by
  have htake : coefficientOf cs =
      (coefficientDigits (Sign.take cs).2).map (Sign.take cs).1.apply := by
    unfold coefficientOf
    split
    · next rest =>
        rw [Sign.take]
        cases coefficientDigits rest <;> rfl
    · rfl
    · next hminus hplus =>
        rw [Sign.take_of_unsigned hminus hplus]
        rfl
  simp only [htake, map_eq_ok_iff, coefficientDigits_eq_ok_iff]
  constructor
  · rintro ⟨n, ⟨hscored, rfl⟩, rfl⟩
    exact ⟨_, _, (Sign.take_eq_iff hscored.head).1 rfl, hscored, rfl⟩
  · rintro ⟨s, digits, heq, hscored, rfl⟩
    rw [(Sign.take_eq_iff hscored.head).2 heq]
    exact ⟨_, ⟨hscored, rfl⟩, rfl⟩

/-! ## The front of a text -/

theorem ne_point {cs : List Char} (h : '.' ∉ cs) : ∀ c ∈ cs, (c != '.') = true := by
  intro c hc
  rw [bne_iff_ne]
  rintro rfl
  exact h hc

theorem splitPoint_pointed {whole : List Char} (h : '.' ∉ whole) (fraction : List Char) :
    splitPoint (whole ++ '.' :: fraction) =
      (whole ++ fraction, (fraction.filter (· != '_')).length) := by
  simp [splitPoint, List.takeWhile_append_of_pos (ne_point h),
    List.dropWhile_append_of_pos (ne_point h)]

theorem splitPoint_unpointed {cs : List Char} (h : '.' ∉ cs) : splitPoint cs = (cs, 0) := by
  simp [splitPoint, List.takeWhile_eq_self_iff.2 (ne_point h),
    List.dropWhile_eq_nil_iff.2 (ne_point h)]

end Decimal

theorem point_not_mem {s : Sign} {cs : List Char} (h : ∀ c ∈ cs, c.isDigit = true ∨ c = '_') :
    '.' ∉ s.chars ++ cs := by
  have hsign : '.' ∉ s.chars := by cases s <;> decide
  intro hmem
  rcases List.mem_append.1 hmem with hmem | hmem
  · exact hsign hmem
  · exact absurd (h '.' hmem) (by decide)

namespace Numeral

variable {n : Numeral} {front : List Char} {i : Int}

theorem whole_chars (n : Numeral) : ∀ c ∈ n.whole, c.isDigit = true ∨ c = '_' :=
  fun c hc => n.scored.chars c (List.mem_append_left _ hc)

theorem length_filter_sign {s : Sign} (hs : s ≠ .none) (cs : List Char) :
    ((s.chars ++ cs).filter (· != '_')).length = (('0' :: cs).filter (· != '_')).length := by
  cases s with
  | none => exact absurd rfl hs
  | plus => rfl
  | minus => rfl

/-- The front of a numeral is read as its coefficient and its places. -/
theorem SpellsFront.read (h : n.SpellsFront front) :
    Decimal.coefficientOf (Decimal.splitPoint front).1 = .ok n.coefficient ∧
      (Decimal.splitPoint front).2 = n.places := by
  have hscored := n.scored
  cases h with
  | usual =>
      have hpoint := point_not_mem (s := n.sign) n.whole_chars
      rw [pointChars, coefficient, digits, places]
      cases hfraction : n.fraction with
      | none =>
          rw [hfraction] at hscored
          rw [Option.elim_none, List.append_nil, Decimal.splitPoint_unpointed hpoint]
          exact ⟨Decimal.coefficientOf_eq_ok_iff.2
            ⟨n.sign, n.whole ++ [], by rw [List.append_nil], hscored, rfl⟩, rfl⟩
      | some fraction =>
          rw [hfraction] at hscored
          rw [Option.elim_some, Decimal.splitPoint_pointed hpoint]
          exact ⟨Decimal.coefficientOf_eq_ok_iff.2
            ⟨n.sign, n.whole ++ fraction, List.append_assoc _ _ _, hscored, rfl⟩, rfl⟩
  | @pointFirst rest hsign hwhole hfraction hrest =>
      have hunpointed : '.' ∉ ([] : List Char) := List.not_mem_nil
      have hsplit := Decimal.splitPoint_pointed hunpointed (n.sign.chars ++ rest)
      rw [List.nil_append, List.nil_append] at hsplit
      rw [hsplit, coefficient, digits, places, hwhole, hfraction]
      exact ⟨Decimal.coefficientOf_eq_ok_iff.2 ⟨n.sign, rest, rfl, hrest, rfl⟩,
        length_filter_sign hsign rest⟩

/-- Whatever is read as a coefficient is the front of a numeral, with any exponent behind it. -/
theorem exists_spellsFront (h : Decimal.coefficientOf (Decimal.splitPoint front).1 = .ok i)
    (x : Option Exponent) :
    ∃ n : Numeral, n.SpellsFront front ∧ n.exponent = x ∧ n.coefficient = i ∧
      n.places = (Decimal.splitPoint front).2 := by
  obtain ⟨s, digits, hdigits, hscored, rfl⟩ := Decimal.coefficientOf_eq_ok_iff.1 h
  by_cases hpoint : '.' ∈ front
  · obtain ⟨whole, fraction, rfl, hwhole⟩ := List.eq_append_cons_of_mem hpoint
    rw [Decimal.splitPoint_pointed hwhole] at hdigits ⊢
    rcases List.append_eq_append_iff.1 hdigits with ⟨behind, hsign, rfl⟩ | ⟨front, rfl, rfl⟩
    · -- a sign that ends behind the point also begins there
      obtain ⟨rfl, rfl⟩ | ⟨hs, rfl, rfl⟩ := Sign.chars_eq_append hsign
      · have hfront : SpellsFront ⟨s, [], some digits, x, hscored⟩
            (s.chars ++ [] ++ '.' :: digits) := .usual
        rw [List.append_nil] at hfront
        exact ⟨_, hfront, rfl, rfl, rfl⟩
      · have hzero : IsScored ('0' :: digits) :=
          ⟨⟨'0', digits, rfl, rfl⟩, List.forall_mem_cons.2 ⟨.inl rfl, hscored.chars⟩⟩
        exact ⟨⟨s, [], some ('0' :: digits), x, hzero⟩, .pointFirst hs rfl rfl hscored, rfl, rfl,
          (length_filter_sign hs digits).symm⟩
    · exact ⟨⟨s, front, some fraction, x, hscored⟩, .usual, rfl, rfl, rfl⟩
  · rw [Decimal.splitPoint_unpointed hpoint] at hdigits ⊢
    have hwhole : IsScored (digits ++ []) := by rwa [List.append_nil]
    have hfront : SpellsFront ⟨s, digits, none, x, hwhole⟩ (s.chars ++ digits ++ []) := .usual
    rw [List.append_nil, ← hdigits] at hfront
    have hcoefficient : s.apply (scoredValue (digits ++ [])) = s.apply (scoredValue digits) := by
      rw [List.append_nil]
    exact ⟨_, hfront, rfl, hcoefficient, rfl⟩

theorem unmarked_scored {cs : List Char} (h : ∀ c ∈ cs, c.isDigit = true ∨ c = '_') :
    ∀ c ∈ cs, Decimal.isExponentMark c = false := by
  intro c hc
  rcases h c hc with hdigit | rfl
  · exact Decimal.isExponentMark_of_isDigit hdigit
  · rfl

theorem SpellsFront.unmarked (h : n.SpellsFront front) :
    ∀ c ∈ front, Decimal.isExponentMark c = false := by
  have hsign : ∀ c ∈ n.sign.chars, Decimal.isExponentMark c = false := by
    cases n.sign <;> exact List.forall_iff_forall_mem.1 (by decide)
  cases h with
  | usual =>
      have hpoint : ∀ c ∈ n.pointChars, Decimal.isExponentMark c = false := by
        have hscored := n.scored
        rw [pointChars]
        cases hfraction : n.fraction with
        | none => exact nofun
        | some fraction =>
            rw [hfraction] at hscored
            refine List.forall_mem_cons.2 ⟨rfl, unmarked_scored fun c hc => ?_⟩
            exact hscored.chars c (List.mem_append_right _ hc)
      rw [List.forall_mem_append, List.forall_mem_append]
      exact ⟨⟨hsign, unmarked_scored n.whole_chars⟩, hpoint⟩
  | pointFirst _ _ _ hrest =>
      rw [List.forall_mem_cons, List.forall_mem_append]
      exact ⟨rfl, hsign, unmarked_scored hrest.chars⟩

end Numeral

namespace Decimal

variable {cs : List Char} {e : Int} {d : Decimal} {text : String}

/-- The exponent is what stands behind the first mark. -/
theorem exponentOf_eq_ok_iff : exponentOf cs = .ok e ↔
    ∃ x : Option Exponent, cs.dropWhile (! isExponentMark ·) = x.elim [] Exponent.chars ∧
      x.elim 0 Exponent.value = e ∧ -2 ^ 127 ≤ e ∧ e < 2 ^ 127 := by
  have hlimit : ((1 <<< 127 - 1 : Nat) : Int) = 2 ^ 127 - 1 := by decide
  unfold exponentOf
  split
  · next hend =>
      rw [hend]
      constructor
      · rintro ⟨⟩
        exact ⟨none, rfl, rfl, by decide, by decide⟩
      · rintro ⟨x, hchars, rfl, -⟩
        cases x with
        | none => rfl
        | some x => cases hchars
  · next mark tail hmark =>
      rw [hmark, mapError_eq_ok_iff, Integer.signed_eq_ok_iff, hlimit]
      constructor
      · rintro ⟨s, digits, rfl, hne, hdigits, rfl, hlow, hhigh⟩
        have hform : isExponentMark mark = true := by
          have hhead := List.head?_dropWhile_not (! isExponentMark ·) cs
          rw [hmark] at hhead
          simpa using hhead
        exact ⟨some ⟨mark, s, digits, hform, hne, hdigits⟩, rfl, rfl, by omega, by omega⟩
      · rintro ⟨x, hchars, rfl, hlow, hhigh⟩
        cases x with
        | none => cases hchars
        | some x =>
            cases hchars
            exact ⟨x.sign, x.digits, rfl, x.filled, x.isDigits, rfl, by omega, by omega⟩

/-- A text is read if what stands in front of the first mark is a coefficient, what stands behind
it is an exponent, and the places that are left are within 64 bits. -/
theorem parse_eq_ok_iff_parts : parse text = .ok d ↔ ∃ (base : List Char) (power : Int),
    text.toList.takeWhile (! isExponentMark ·) = base ∧ exponentOf text.toList = .ok power ∧
      coefficientOf (splitPoint base).1 = .ok d.coefficient ∧
      (splitPoint base).2 - power = d.scale ∧
      Int64.minValue.toInt ≤ d.scale ∧ d.scale ≤ Int64.maxValue.toInt := by
  rw [parse, bind_eq_ok_iff]
  constructor
  · rintro ⟨power, hpower, h⟩
    refine ⟨_, power, rfl, hpower, ?_⟩
    dsimp only at h
    split at h
    · cases h
    split at h
    · cases h
    · next hscale =>
        obtain ⟨coefficient, hcoefficient, h⟩ := bind_eq_ok_iff.1 h
        cases h
        rw [not_or, Int.not_lt, Int.not_lt] at hscale
        exact ⟨hcoefficient, rfl, hscale⟩
  · rintro ⟨_, power, rfl, hpower, hcoefficient, hscale, hlow, hhigh⟩
    have hbase : (text.toList.takeWhile (! isExponentMark ·)).isEmpty = false := by
      rw [List.isEmpty_eq_false_iff]
      intro hempty
      rw [hempty] at hcoefficient
      cases hcoefficient
    refine ⟨power, hpower, ?_⟩
    dsimp only
    rw [hscale, hbase, hcoefficient, if_neg Bool.false_ne_true, if_neg (by omega)]
    rfl

/-- A front without marks and an exponent behind it are told apart. -/
theorem split_exponentChars {front : List Char} (h : ∀ c ∈ front, isExponentMark c = false)
    (n : Numeral) :
    (front ++ n.exponentChars).takeWhile (! isExponentMark ·) = front ∧
      (front ++ n.exponentChars).dropWhile (! isExponentMark ·) = n.exponentChars := by
  have hfront : ∀ c ∈ front, (! isExponentMark c) = true := by
    intro c hc
    rw [h c hc]
    rfl
  rw [List.takeWhile_append_of_pos hfront, List.dropWhile_append_of_pos hfront]
  cases hexponent : n.exponent with
  | none => simp [Numeral.exponentChars, hexponent]
  | some e => simp [Numeral.exponentChars, hexponent, Exponent.chars, e.isMark]

/-- Exactly the texts that spell a numeral within bounds are read, as this numeral. -/
theorem parse_eq_ok_iff :
    parse text = .ok d ↔ ∃ n : Numeral, n.Spells text.toList ∧ n.InRange ∧ n.decimal = d := by
  rw [parse_eq_ok_iff_parts]
  constructor
  · rintro ⟨_, power, rfl, hpower, hcoefficient, hscale, hlow, hhigh⟩
    obtain ⟨x, hchars, rfl, hbound⟩ := exponentOf_eq_ok_iff.1 hpower
    obtain ⟨n, hfront, rfl, hn, hplaces⟩ := Numeral.exists_spellsFront hcoefficient x
    have hdecimal : n.decimal = d := by
      rw [Numeral.decimal, hn, hplaces, Numeral.power, hscale]
    refine ⟨n, ⟨_, hfront, ?_⟩, ⟨hbound, ?_⟩, hdecimal⟩
    · rw [Numeral.exponentChars, ← hchars, List.takeWhile_append_dropWhile]
    · rw [hplaces, Numeral.power, hscale]
      exact ⟨hlow, hhigh⟩
  · rintro ⟨n, ⟨front, hfront, htext⟩, hrange, rfl⟩
    obtain ⟨htake, hdrop⟩ := split_exponentChars hfront.unmarked n
    obtain ⟨hcoefficient, hplaces⟩ := hfront.read
    refine ⟨front, n.power, by rw [htext, htake], ?_, hcoefficient, ?_, hrange.scale⟩
    · rw [exponentOf_eq_ok_iff, htext, hdrop]
      exact ⟨n.exponent, rfl, rfl, hrange.power⟩
    · rw [hplaces]
      rfl

end Decimal

end CashWallet
