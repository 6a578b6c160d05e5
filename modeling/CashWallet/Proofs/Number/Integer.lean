import CashWallet.Number.Integer
import CashWallet.Proofs.Results
import Mathlib.Algebra.Order.Ring.Nat

/-!
# Integers written in decimal

Exactly the texts of digits behind an optional sign are read, each as the number that it writes, as
long as this number is within bounds. Digits are read from left to right and the number so far never
falls, so a reader that stops at a limit stops nowhere in the digits of a number within the limit.
-/

namespace CashWallet

open Results

/-! ## Digits -/

namespace Decimal

theorem isDigit_iff {c : Char} : c.isDigit = true ↔ 48 ≤ c.toNat ∧ c.toNat ≤ 57 := by
  simp [Char.isDigit, UInt32.le_iff_toNat_le]

/-- A digit is neither a sign nor a mark. -/
theorem ne_of_isDigit {c d : Char} (hc : c.isDigit = true) (hd : d.isDigit = false) : c ≠ d := by
  rintro rfl
  rw [hc] at hd
  cases hd

theorem isDigit_toDigits (n : Nat) : ∀ c ∈ Nat.toDigits 10 n, c.isDigit = true := by
  intro c hc
  exact Nat.isDigit_of_mem_toDigits (by decide) (by decide) hc

theorem isDigit_padded (n places : Nat) :
    ∀ c ∈ (Nat.toDigits 10 n).leftpad places '0', c.isDigit = true := by
  intro c hc
  rcases List.mem_append.1 hc with hc | hc
  · rw [List.eq_of_mem_replicate hc]
    rfl
  · exact isDigit_toDigits n c hc

theorem length_padded {n places : Nat} (hplaces : 0 < places) (hn : n < Nat.pow 10 places) :
    ((Nat.toDigits 10 n).leftpad places '0').length = places := by
  have hshort := (Nat.length_toDigits_le_iff (by decide) hplaces).2 hn
  rw [List.length_leftpad]
  omega

/-- Zeros in front do not count. -/
theorem ofDigitChars_padded (n places : Nat) :
    Nat.ofDigitChars 10 ((Nat.toDigits 10 n).leftpad places '0') 0 = n := by
  rw [List.leftpad, Nat.ofDigitChars_append, Nat.ofDigitChars_replicate_zero, Nat.mul_zero,
    Nat.ofDigitChars_ten_toDigits]

end Decimal

namespace Integer

variable {limit : Nat} {cs : List Char}

/-- Further digits do not make a number smaller. -/
theorem le_ofDigitChars (acc : Nat) (cs : List Char) : acc ≤ Nat.ofDigitChars 10 cs acc := by
  induction cs generalizing acc with
  | nil => exact Nat.le_refl acc
  | cons c cs ih =>
      rw [Nat.ofDigitChars_cons]
      exact Nat.le_trans (by omega) (ih _)

/-- Digits write a number below the power of ten that their number tells. -/
theorem ofDigitChars_lt (h : ∀ c ∈ cs, c.isDigit = true) :
    Nat.ofDigitChars 10 cs 0 < Nat.pow 10 cs.length := by
  induction cs with
  | nil => exact Nat.zero_lt_one
  | cons c cs ih =>
      obtain ⟨hc, hcs⟩ := List.forall_mem_cons.1 h
      have hdigit : c.toNat - 48 ≤ 9 := by
        have hrange := Decimal.isDigit_iff.1 hc
        omega
      have hscaled : Nat.pow 10 cs.length * (c.toNat - 48) ≤ Nat.pow 10 cs.length * 9 :=
        Nat.mul_le_mul_left _ hdigit
      have htail := ih hcs
      have hpower : Nat.pow 10 (cs.length + 1) = Nat.pow 10 cs.length * 10 := rfl
      have hread : Nat.ofDigitChars 10 (c :: cs) 0 =
          Nat.pow 10 cs.length * (c.toNat - 48) + Nat.ofDigitChars 10 cs 0 := by
        rw [Nat.ofDigitChars_cons, Nat.ofDigitChars_eq_ofDigitChars_zero, Nat.mul_zero,
          Nat.zero_add]
        rfl
      rw [hread, List.length_cons, hpower]
      omega

/-- A number is written without leading zeros. -/
theorem length_toDigits_of_head {n : Nat} (h : Nat.toDigits 10 n = '0' :: cs) : cs = [] := by
  by_contra hne
  have hpos : 0 < cs.length := List.length_pos_iff.2 hne
  have hdigits : ∀ c ∈ cs, c.isDigit = true := by
    intro c hc
    refine Decimal.isDigit_toDigits n c ?_
    rw [h]
    exact List.mem_cons_of_mem _ hc
  have hread : Nat.ofDigitChars 10 cs 0 = n := by
    have hall : Nat.ofDigitChars 10 (Nat.toDigits 10 n) 0 = n := Nat.ofDigitChars_ten_toDigits
    rw [h, Nat.ofDigitChars_cons] at hall
    exact hall
  have hshort : (Nat.toDigits 10 n).length ≤ cs.length := by
    rw [Nat.length_toDigits_le_iff (by decide) hpos, ← hread]
    exact ofDigitChars_lt hdigits
  rw [h, List.length_cons] at hshort
  omega

/-- Digits are read as the number that they write, within the limit. -/
theorem digitsWithin_eq_ok_iff {overflow : Fault} {acc n : Nat} (hacc : acc ≤ limit) :
    digitsWithin limit overflow acc cs = .ok n ↔
      (∀ c ∈ cs, c.isDigit = true) ∧ Nat.ofDigitChars 10 cs acc = n ∧ n ≤ limit := by
  induction cs generalizing acc with
  | nil =>
      constructor
      · intro h
        cases h
        exact ⟨nofun, rfl, hacc⟩
      · rintro ⟨-, rfl, -⟩
        rfl
  | cons c cs ih =>
      rw [List.forall_mem_cons, Nat.ofDigitChars_cons]
      by_cases hc : c.isDigit = true
      · have hvalue : digitValue? c = some (c.toNat - 48) := if_pos hc
        simp only [digitsWithin, hvalue, hc, true_and]
        split
        · next hnext => exact ih hnext
        · next hbeyond =>
            constructor
            · rintro ⟨⟩
            · rintro ⟨-, rfl, hlimit⟩
              exact absurd (Nat.le_trans (le_ofDigitChars _ cs) hlimit) hbeyond
      · have hvalue : digitValue? c = none := if_neg hc
        simp only [digitsWithin, hvalue]
        constructor
        · rintro ⟨⟩
        · rintro ⟨⟨hdigit, -⟩, -⟩
          exact absurd hdigit hc

/-- The characters write a number: at least one digit, perhaps with a plus sign in front. -/
def Writes (n : Nat) (cs : List Char) : Prop :=
  ∃ digits : List Char, (cs = digits ∨ cs = '+' :: digits) ∧ digits ≠ [] ∧
    (∀ c ∈ digits, c.isDigit = true) ∧ Nat.ofDigitChars 10 digits 0 = n

theorem unsigned_eq_ok_iff {n : Nat} : unsigned limit cs = .ok n ↔ Writes n cs ∧ n ≤ limit := by
  constructor
  · intro h
    unfold unsigned at h
    split at h
    · cases h
    · cases h
    · next hne =>
        obtain ⟨hdigits, hread, hlimit⟩ := (digitsWithin_eq_ok_iff (Nat.zero_le _)).1 h
        exact ⟨⟨_, .inr rfl, hne, hdigits, hread⟩, hlimit⟩
    · next hne _ _ =>
        obtain ⟨hdigits, hread, hlimit⟩ := (digitsWithin_eq_ok_iff (Nat.zero_le _)).1 h
        exact ⟨⟨_, .inl rfl, hne, hdigits, hread⟩, hlimit⟩
  · rintro ⟨⟨digits, hcs, hne, hdigits, hread⟩, hlimit⟩
    have hwithin : digitsWithin limit .tooLarge 0 digits = .ok n :=
      (digitsWithin_eq_ok_iff (Nat.zero_le _)).2 ⟨hdigits, hread, hlimit⟩
    obtain ⟨c, rest, rfl⟩ := List.exists_cons_of_ne_nil hne
    rcases hcs with rfl | rfl
    · -- a digit is no sign
      have hplus : c ≠ '+' := Decimal.ne_of_isDigit (hdigits c List.mem_cons_self) rfl
      rw [← hwithin]
      unfold unsigned
      split
      · next hnil => cases hnil
      · next heq => exact absurd (List.cons.inj heq).1 hplus
      · next heq => exact absurd (List.cons.inj heq).1 hplus
      · rfl
    · exact hwithin

theorem u64?_eq_some_iff {text : String} {n : UInt64} :
    u64? text = some n ↔ Writes n.toNat text.toList := by
  have hlimit : n.toNat ≤ UInt64.size - 1 := Nat.le_sub_one_of_lt n.toNat_lt
  have hread : unsigned (UInt64.size - 1) text.toList = .ok n.toNat ↔
      Writes n.toNat text.toList := by
    rw [unsigned_eq_ok_iff, and_iff_left hlimit]
  rw [← hread, u64?]
  cases hunsigned : unsigned (UInt64.size - 1) text.toList with
  | error fault => simp
  | ok found =>
      have hfound : found < UInt64.size :=
        Nat.lt_of_le_of_lt (unsigned_eq_ok_iff.1 hunsigned).2 (by decide)
      constructor
      · intro h
        rw [← Option.some.inj h, UInt64.toNat_ofNat_of_lt' hfound]
      · intro h
        rw [Except.ok.inj h]
        exact congrArg some UInt64.ofNat_toNat

/-- Every number of 64 bits is read back from its decimal text. -/
theorem u64?_toString (n : UInt64) : u64? (toString n) = some n := by
  have htext : (toString n).toList = Nat.toDigits 10 n.toNat := String.toList_ofList
  rw [u64?_eq_some_iff, htext]
  exact ⟨_, .inl rfl, Nat.toDigits_ne_nil, Decimal.isDigit_toDigits n.toNat,
    Nat.ofDigitChars_ten_toDigits⟩

end Integer

/-! ## Signs -/

/-- A sign, if there is one. -/
inductive Sign where
  | none
  | plus
  | minus
  deriving DecidableEq

namespace Sign

def chars : Sign → List Char
  | none => []
  | plus => ['+']
  | minus => ['-']

theorem chars_eq_append {s : Sign} {front behind : List Char} (h : s.chars = front ++ behind) :
    front = s.chars ∧ behind = [] ∨ s ≠ none ∧ front = [] ∧ behind = s.chars := by
  cases s with
  | none =>
      obtain ⟨rfl, rfl⟩ := List.append_eq_nil_iff.1 h.symm
      exact .inl ⟨rfl, rfl⟩
  | plus =>
      obtain ⟨rfl, rfl⟩ | ⟨rfl, rfl⟩ := List.append_eq_singleton_iff.1 h.symm
      · exact .inr ⟨nofun, rfl, rfl⟩
      · exact .inl ⟨rfl, rfl⟩
  | minus =>
      obtain ⟨rfl, rfl⟩ | ⟨rfl, rfl⟩ := List.append_eq_singleton_iff.1 h.symm
      · exact .inr ⟨nofun, rfl, rfl⟩
      · exact .inl ⟨rfl, rfl⟩

def apply : Sign → Nat → Int
  | minus, n => -(n : Int)
  | _, n => n

/-- How far a number with a sign may lie from zero. -/
def bound (limit : Nat) : Sign → Nat
  | minus => limit + 1
  | _ => limit

theorem le_bound_iff {s : Sign} {limit n : Nat} :
    n ≤ s.bound limit ↔ -(limit + 1) ≤ s.apply n ∧ s.apply n ≤ limit := by
  cases s with
  | none => simp only [bound, apply]; omega
  | plus => simp only [bound, apply]; omega
  | minus => simp only [bound, apply]; omega

/-- The sign in front of some characters, and the characters behind it. -/
def take : List Char → Sign × List Char
  | '-' :: rest => (minus, rest)
  | '+' :: rest => (plus, rest)
  | cs => (none, cs)

theorem take_of_unsigned {cs : List Char} (hminus : ∀ rest, cs = '-' :: rest → False)
    (hplus : ∀ rest, cs = '+' :: rest → False) : take cs = (none, cs) := by
  unfold take
  split
  · exact (hminus _ rfl).elim
  · exact (hplus _ rfl).elim
  · rfl

theorem eq_of_take {cs digits : List Char} {s : Sign} (h : take cs = (s, digits)) :
    cs = s.chars ++ digits := by
  unfold take at h
  split at h <;> cases h <;> rfl

/-- What begins with a digit has no sign in front. -/
theorem take_eq_iff {cs digits : List Char} {s : Sign}
    (h : ∀ c ∈ digits.head?, c.isDigit = true) :
    take cs = (s, digits) ↔ cs = s.chars ++ digits := by
  constructor
  · exact eq_of_take
  · rintro rfl
    cases s with
    | none =>
        rw [chars, List.nil_append]
        unfold take
        split
        · cases h '-' rfl
        · cases h '+' rfl
        · rfl
    | plus => rfl
    | minus => rfl

end Sign

namespace Integer

variable {limit : Nat} {cs digits : List Char} {s : Sign} {e : Int}

/-- A sign without digits is refused. -/
theorem signed_bare (limit : Nat) (s : Sign) : ∃ fault, signed limit s.chars = .error fault := by
  cases s <;> exact ⟨_, rfl⟩

theorem signed_minus {c : Char} {rest : List Char} : signed limit ('-' :: c :: rest) =
    (digitsWithin (limit + 1) .tooSmall 0 (c :: rest)).map Sign.minus.apply := by
  rw [signed]
  · cases digitsWithin (limit + 1) .tooSmall 0 (c :: rest) <;> rfl
  · exact List.cons_ne_nil c rest

theorem signed_plus {c : Char} {rest : List Char} : signed limit ('+' :: c :: rest) =
    (digitsWithin limit .tooLarge 0 (c :: rest)).map Sign.plus.apply := rfl

theorem signed_unsigned (hminus : ∀ rest, cs = '-' :: rest → False)
    (hplus : ∀ rest, cs = '+' :: rest → False) (hcs : cs ≠ []) :
    signed limit cs = (digitsWithin limit .tooLarge 0 cs).map Sign.none.apply := by
  unfold signed
  split
  · exact (hminus _ rfl).elim
  · exact (hminus _ rfl).elim
  · unfold unsigned
    split
    · exact absurd rfl hcs
    · exact (hplus _ rfl).elim
    · exact (hplus _ rfl).elim
    · rfl

theorem signed_take (limit : Nat) (htake : Sign.take cs = (s, digits)) (hne : digits ≠ []) :
    ∃ overflow, signed limit cs =
      (digitsWithin (s.bound limit) overflow 0 digits).map s.apply := by
  obtain ⟨c, rest, rfl⟩ := List.exists_cons_of_ne_nil hne
  unfold Sign.take at htake
  split at htake
  · cases htake
    exact ⟨_, signed_minus⟩
  · cases htake
    exact ⟨_, signed_plus⟩
  · next hminus hplus =>
      cases htake
      exact ⟨_, signed_unsigned hminus hplus hne⟩

/-- A number is read from an optional sign and at least one digit, if it is within bounds. -/
theorem signed_eq_ok_iff : signed limit cs = .ok e ↔
    ∃ (s : Sign) (digits : List Char), cs = s.chars ++ digits ∧ digits ≠ [] ∧
      (∀ c ∈ digits, c.isDigit = true) ∧ s.apply (Nat.ofDigitChars 10 digits 0) = e ∧
      -(limit + 1) ≤ e ∧ e ≤ limit := by
  constructor
  · intro h
    cases htake : Sign.take cs with
    | mk s digits =>
        have hcs := Sign.eq_of_take htake
        by_cases hne : digits = []
        · obtain ⟨fault, hfault⟩ := signed_bare limit s
          rw [hcs, hne, List.append_nil, hfault] at h
          cases h
        · obtain ⟨overflow, hread⟩ := signed_take limit htake hne
          rw [hread, map_eq_ok_iff] at h
          obtain ⟨n, hn, rfl⟩ := h
          obtain ⟨hdigits, rfl, hbound⟩ := (digitsWithin_eq_ok_iff (Nat.zero_le _)).1 hn
          exact ⟨s, digits, hcs, hne, hdigits, rfl, Sign.le_bound_iff.1 hbound⟩
  · rintro ⟨s, digits, hcs, hne, hdigits, rfl, hbound⟩
    have hhead : ∀ c ∈ digits.head?, c.isDigit = true := fun c hc =>
      hdigits c (List.mem_of_head? hc)
    obtain ⟨overflow, hread⟩ := signed_take limit ((Sign.take_eq_iff hhead).2 hcs) hne
    rw [hread, map_eq_ok_iff]
    exact ⟨_, (digitsWithin_eq_ok_iff (Nat.zero_le _)).2
      ⟨hdigits, rfl, Sign.le_bound_iff.2 hbound⟩, rfl⟩

end Integer

end CashWallet
