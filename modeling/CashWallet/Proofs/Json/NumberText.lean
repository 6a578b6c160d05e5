import CashWallet.Proofs.Bytes.HexText
import CashWallet.Proofs.Json.ReadBack
import Mathlib.Data.List.TakeWhile

/-!
# Hexadecimal texts that are documents

A text of hexadecimal digits is no document unless it is a number: decimal digits, and perhaps an
exponent, whose mark is one of the digits. Such a text has neither a sign nor a point.
-/

namespace CashWallet.Json

variable {cs rest : List Char} {j : Json}

/-- Digits of an integer part: at least one, and no zero in front of another. -/
structure IsWhole (whole : List Char) : Prop where
  filled : whole ≠ []
  digits : ∀ c ∈ whole, c.isDigit = true
  noLeadingZero : whole.head? = some '0' → whole.length = 1

/-- The literals without sign and point, and how they are written. -/
inductive Literal.Writes : Literal → List Char → Prop
  | integer {whole : List Char} (hwhole : IsWhole whole) : Writes ⟨false, whole, none, none⟩ whole
  | scaled {whole digits : List Char} {mark : Char} (hwhole : IsWhole whole)
      (hmark : mark = 'e' ∨ mark = 'E') (hfilled : digits ≠ [])
      (hdigits : ∀ c ∈ digits, c.isDigit = true) :
      Writes ⟨false, whole, none, some (false, digits)⟩ (whole ++ mark :: digits)

/-- The characters write a number, and one within bounds. -/
def WritesNumber (cs : List Char) : Prop :=
  ∃ (l : Literal) (n : Number), l.Writes cs ∧ l.number? = some n

theorem WritesNumber.chars (h : WritesNumber cs) :
    ∀ c ∈ cs, c.isDigit = true ∨ c = 'e' ∨ c = 'E' := by
  obtain ⟨l, -, hwrites, -⟩ := h
  cases hwrites with
  | integer hwhole => exact fun c hc => .inl (hwhole.digits c hc)
  | scaled hwhole hmark _ hdigits =>
      rw [List.forall_mem_append, List.forall_mem_cons]
      exact ⟨fun c hc => .inl (hwhole.digits c hc), .inr hmark, fun c hc => .inl (hdigits c hc)⟩

/-! ## The parts of a number -/

theorem isWhole_iff {whole : List Char} (hdigits : ∀ c ∈ whole, c.isDigit = true) :
    IsWhole whole ↔
      ¬ (whole.isEmpty || (whole.head? == some '0' && decide (1 < whole.length))) = true := by
  rw [Bool.or_eq_true, Bool.and_eq_true, List.isEmpty_iff, beq_iff_eq, decide_eq_true_iff]
  constructor
  · rintro ⟨hfilled, -, hzero⟩ (hnil | ⟨hhead, hlong⟩)
    · exact hfilled hnil
    · exact Nat.ne_of_gt hlong (hzero hhead)
  · intro h
    have hfilled : whole ≠ [] := fun hnil => h (.inl hnil)
    refine ⟨hfilled, hdigits, fun hhead => ?_⟩
    have hshort : ¬ 1 < whole.length := fun hlong => h (.inr ⟨hhead, hlong⟩)
    have hpos := List.length_pos_of_ne_nil hfilled
    omega

theorem fractionPart?_hex (h : ∀ c ∈ rest, c ∈ Hex.digits) :
    fractionPart? rest = some (none, rest) := by
  unfold fractionPart?
  split
  · exact absurd (h '.' List.mem_cons_self) (by decide)
  · rfl

theorem exponentPart?_marked {mark : Char} (hmark : mark = 'e' ∨ mark = 'E')
    (h : ∀ c ∈ rest, c ∈ Hex.digits) :
    exponentPart? (mark :: rest) =
      if (rest.takeWhile Char.isDigit).isEmpty then none
      else some (some (false, rest.takeWhile Char.isDigit), rest.dropWhile Char.isDigit) := by
  have hsign (sign : Char) (hsign : sign ∉ Hex.digits) : (rest.head? == some sign) = false := by
    rw [beq_eq_false_iff_ne]
    intro hhead
    exact hsign (h sign (List.mem_of_head? hhead))
  have hform : (mark == 'e' || mark == 'E') = true := by
    rcases hmark with rfl | rfl <;> rfl
  rw [exponentPart?]
  simp only [hform, hsign '-' (by decide), hsign '+' (by decide)]
  rfl

/-- All that is left is taken as an exponent, or nothing is left. -/
theorem exponentPart?_hex (h : ∀ c ∈ rest, c ∈ Hex.digits) {found : Option (Bool × List Char)} :
    exponentPart? rest = some (found, []) ↔
      rest = [] ∧ found = none ∨
        ∃ mark digits, rest = mark :: digits ∧ (mark = 'e' ∨ mark = 'E') ∧ digits ≠ [] ∧
          (∀ c ∈ digits, c.isDigit = true) ∧ found = some (false, digits) := by
  cases rest with
  | nil =>
      constructor
      · intro hread
        cases hread
        exact .inl ⟨rfl, rfl⟩
      · rintro (⟨-, rfl⟩ | ⟨mark, digits, heq, -⟩)
        · rfl
        · cases heq
  | cons mark rest =>
      have hrest : ∀ c ∈ rest, c ∈ Hex.digits := fun c hc => h c (List.mem_cons_of_mem mark hc)
      constructor
      · intro hread
        by_cases hmark : mark = 'e' ∨ mark = 'E'
        · rw [exponentPart?_marked hmark hrest] at hread
          split at hread
          · cases hread
          · next hfilled =>
              obtain ⟨hfound, hend⟩ := Prod.mk.inj (Option.some_inj.1 hread)
              have hdigits := List.dropWhile_eq_nil_iff.1 hend
              rw [List.takeWhile_eq_self_iff.2 hdigits] at hfilled hfound
              exact .inr ⟨mark, rest, rfl, hmark, fun hnil => hfilled (List.isEmpty_iff.2 hnil),
                hdigits, hfound.symm⟩
        · rw [not_or] at hmark
          simp [exponentPart?, hmark] at hread
      · rintro (⟨heq, -⟩ | ⟨mark, digits, heq, hmark, hfilled, hdigits, rfl⟩)
        · cases heq
        · cases heq
          rw [exponentPart?_marked hmark hrest, List.takeWhile_eq_self_iff.2 hdigits,
            List.dropWhile_eq_nil_iff.2 hdigits, if_neg (by simpa using hfilled)]

theorem exponentPart?_left (h : ∀ c ∈ cs, c ∈ Hex.digits) {found : Option (Bool × List Char)}
    (hread : exponentPart? cs = some (found, rest)) : ∀ c ∈ rest, c ∈ cs := by
  cases cs with
  | nil =>
      cases hread
      exact nofun
  | cons mark tail =>
      have htail : ∀ c ∈ tail, c ∈ Hex.digits := fun c hc => h c (List.mem_cons_of_mem mark hc)
      by_cases hmark : mark = 'e' ∨ mark = 'E'
      · rw [exponentPart?_marked hmark htail] at hread
        split at hread
        · cases hread
        · cases hread
          exact fun c hc => List.mem_cons_of_mem mark ((List.dropWhile_sublist _).mem hc)
      · rw [not_or] at hmark
        simp only [exponentPart?, beq_iff_eq, hmark, Bool.or_eq_true, or_self, if_false] at hread
        cases hread
        exact fun c hc => hc

theorem numberLiteral_parts (h : ∀ c ∈ cs, c ∈ Hex.digits) :
    numberLiteral false cs = some (j, rest) ↔
      IsWhole (cs.takeWhile Char.isDigit) ∧
        ∃ found, exponentPart? (cs.dropWhile Char.isDigit) = some (found, rest) ∧
          j = (Literal.number? ⟨false, cs.takeWhile Char.isDigit, none, found⟩).elim
            .unreadable .number := by
  have hbehind : ∀ c ∈ cs.dropWhile Char.isDigit, c ∈ Hex.digits := fun c hc =>
    h c ((List.dropWhile_sublist _).mem hc)
  rw [isWhole_iff fun c => List.mem_takeWhile_imp, numberLiteral]
  dsimp only
  split
  · next hform =>
      simp [hform]
  · next hform =>
      simp only [fractionPart?_hex hbehind, Option.bind_eq_bind, Option.bind_some, Option.pure_def,
        Option.bind_eq_some_iff, Option.some_inj, Prod.exists, Prod.mk.injEq]
      constructor
      · rintro ⟨found, left, hread, rfl, rfl⟩
        exact ⟨hform, found, hread, rfl⟩
      · rintro ⟨-, found, hread, rfl⟩
        exact ⟨found, rest, hread, rfl, rfl⟩

/-- A text of hexadecimal digits that is taken as a number as a whole is written by a literal. -/
theorem numberLiteral_hex (h : ∀ c ∈ cs, c ∈ Hex.digits) :
    numberLiteral false cs = some (j, []) ↔
      ∃ l : Literal, l.Writes cs ∧ j = l.number?.elim .unreadable .number := by
  have hbehind : ∀ c ∈ cs.dropWhile Char.isDigit, c ∈ Hex.digits := fun c hc =>
    h c ((List.dropWhile_sublist _).mem hc)
  have hsplit : cs.takeWhile Char.isDigit ++ cs.dropWhile Char.isDigit = cs :=
    List.takeWhile_append_dropWhile
  simp only [numberLiteral_parts h, exponentPart?_hex hbehind]
  constructor
  · rintro ⟨hwhole, found, ⟨hend, rfl⟩ | ⟨mark, digits, heq, hmark, hfilled, hdigits, rfl⟩, hj⟩
    · rw [hend, List.append_nil] at hsplit
      rw [hsplit] at hwhole hj
      exact ⟨_, .integer hwhole, hj⟩
    · rw [heq] at hsplit
      refine ⟨_, ?_, hj⟩
      have hwrites := Literal.Writes.scaled hwhole hmark hfilled hdigits
      rwa [hsplit] at hwrites
  · rintro ⟨l, hwrites, hj⟩
    cases hwrites with
    | integer hwhole =>
        rw [List.takeWhile_eq_self_iff.2 hwhole.digits, List.dropWhile_eq_nil_iff.2 hwhole.digits]
        exact ⟨hwhole, none, .inl ⟨rfl, rfl⟩, hj⟩
    | @scaled whole digits mark hwhole hmark hfilled hdigits =>
        have hstop : ¬ mark.isDigit = true := by
          rcases hmark with rfl | rfl <;> decide
        rw [List.takeWhile_append_of_pos hwhole.digits, List.dropWhile_append_of_pos hwhole.digits,
          List.takeWhile_cons_of_neg hstop, List.dropWhile_cons_of_neg hstop, List.append_nil]
        exact ⟨hwhole, _, .inr ⟨mark, digits, rfl, hmark, hfilled, hdigits, rfl⟩, hj⟩

/-! ## The document -/

theorem isSpace_hex : ∀ c ∈ Hex.digits, isSpace c = false :=
  List.forall_iff_forall_mem.1 (by decide)

theorem skipSpace_hex (h : ∀ c ∈ cs, c ∈ Hex.digits) : skipSpace cs = cs := by
  cases cs with
  | nil => rfl
  | cons c cs => exact skipSpace_cons (isSpace_hex c (h c List.mem_cons_self)) cs

/-- No other value begins with a digit but the word for falsity, whose third letter is none. -/
theorem value_hex (h : ∀ c ∈ cs, c ∈ Hex.digits) (fuel : Nat) :
    value (fuel + 1) cs = numberLiteral false cs := by
  have hnone (c : Char) (hc : c ∉ Hex.digits) : c ∉ cs := fun hmem => hc (h c hmem)
  rw [value, skipSpace_hex h]
  split
  · exact absurd (List.mem_cons_self) (hnone 'n' (by decide))
  · exact absurd (List.mem_cons_self) (hnone 't' (by decide))
  · exact absurd (by simp) (hnone 'l' (by decide))
  · exact absurd (List.mem_cons_self) (hnone '"' (by decide))
  · exact absurd (List.mem_cons_self) (hnone '[' (by decide))
  · exact absurd (List.mem_cons_self) (hnone '\x7b' (by decide))
  · exact absurd (List.mem_cons_self) (hnone '-' (by decide))
  · rfl

/-- A text of hexadecimal digits is a document exactly if it writes a number. -/
theorem read?_hex (h : ∀ c ∈ cs, c ∈ Hex.digits) : read? (String.ofList cs) = some j ↔
    ∃ (l : Literal) (n : Number), l.Writes cs ∧ l.number? = some n ∧ j = .number n := by
  have hparse (document : Json) : parse? (String.ofList cs) = some document ↔
      ∃ l : Literal, l.Writes cs ∧ document = l.number?.elim .unreadable .number := by
    rw [← numberLiteral_hex h, parse?, String.toList_ofList, value_hex h]
    cases hread : numberLiteral false cs with
    | none => simp
    | some found =>
        obtain ⟨value, left⟩ := found
        obtain ⟨-, _, hexponent, -⟩ := (numberLiteral_parts h).1 hread
        have hbehind : ∀ c ∈ cs.dropWhile Char.isDigit, c ∈ Hex.digits := fun c hc =>
          h c ((List.dropWhile_sublist _).mem hc)
        have hleft : skipSpace left = left := by
          apply skipSpace_hex
          exact fun c hc => hbehind c (exponentPart?_left hbehind hexponent c hc)
        simp [hleft, and_comm]
  rw [read?, Option.bind_eq_some_iff]
  simp only [hparse]
  constructor
  · rintro ⟨document, ⟨l, hwrites, rfl⟩, hvalue⟩
    cases hnumber : l.number? with
    | none =>
        rw [hnumber] at hvalue
        cases hvalue
    | some n =>
        rw [hnumber] at hvalue
        cases hvalue
        exact ⟨l, n, hwrites, hnumber, rfl⟩
  · rintro ⟨l, n, hwrites, hnumber, rfl⟩
    exact ⟨_, ⟨l, hwrites, rfl⟩, by rw [hnumber]; rfl⟩

theorem exists_read?_hex (h : ∀ c ∈ cs, c ∈ Hex.digits) (hnumber : WritesNumber cs) :
    ∃ n, read? (String.ofList cs) = some (.number n) := by
  obtain ⟨l, n, hwrites, hn⟩ := hnumber
  exact ⟨n, (read?_hex h).2 ⟨l, n, hwrites, hn, rfl⟩⟩

theorem read?_hex_eq_none (h : ∀ c ∈ cs, c ∈ Hex.digits) (hnumber : ¬ WritesNumber cs) :
    read? (String.ofList cs) = none := by
  rw [Option.eq_none_iff_forall_ne_some]
  intro j hread
  obtain ⟨l, n, hwrites, hn, -⟩ := (read?_hex h).1 hread
  exact hnumber ⟨l, n, hwrites, hn⟩

/-- Hexadecimal digits in quote marks are read as the text that they are. -/
theorem read?_quoted_hex (h : ∀ c ∈ cs, c ∈ Hex.digits) :
    read? (String.ofList ('"' :: (cs ++ ['"']))) = some (.string (String.ofList cs)) := by
  have hescape : ∀ c ∈ Hex.digits, escapeChars c = [c] :=
    List.forall_iff_forall_mem.1 (by decide)
  have hchars : cs.flatMap escapeChars = cs := by
    rw [List.flatMap_congr fun c hc => hescape c (h c hc)]
    exact List.flatMap_singleton' cs
  have hprint : print (.string (String.ofList cs)) = String.ofList ('"' :: (cs ++ ['"'])) := by
    rw [print, chars, textChars, String.toList_ofList, hchars, List.cons_append]
  rw [read?, ← hprint, parse?_print rfl]
  rfl

end CashWallet.Json
