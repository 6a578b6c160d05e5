import CashWallet.Json.Parser
import CashWallet.Json.Printer
import CashWallet.Proofs.Number.Integer

/-!
# Written documents are read back

A value whose numbers are natural ones is read back from its text, whatever stands in its texts and
however deep its parts lie. What may follow a value is what may follow a number, since all else ends
by itself. A text of some length is written in at least as many characters as reading it back takes
steps, so reading never runs out of them.
-/

namespace CashWallet.Json

/-! ## Blank space and numbers -/

theorem skipSpace_cons {c : Char} (h : isSpace c = false) (cs : List Char) :
    skipSpace (c :: cs) = c :: cs := by
  rw [skipSpace, List.dropWhile_cons, if_neg (by simp [h])]

/-- Nothing in front of the characters would be taken into a number. -/
def EndsNumber (cs : List Char) : Prop :=
  ∀ c ∈ cs.head?, c.isDigit = false ∧ c ≠ '.' ∧ c ≠ 'e' ∧ c ≠ 'E'

theorem endsNumber_nil : EndsNumber [] := nofun

theorem endsNumber_cons {c : Char} {cs : List Char}
    (h : c.isDigit = false ∧ c ≠ '.' ∧ c ≠ 'e' ∧ c ≠ 'E') : EndsNumber (c :: cs) := by
  intro d hd
  cases hd
  exact h

theorem EndsNumber.takeWhile {rest : List Char} (h : EndsNumber rest) :
    rest.takeWhile Char.isDigit = [] := by
  cases rest with
  | nil => rfl
  | cons c rest => rw [List.takeWhile_cons, if_neg (by simp [(h c rfl).1])]

theorem EndsNumber.dropWhile {rest : List Char} (h : EndsNumber rest) :
    rest.dropWhile Char.isDigit = rest := by
  cases rest with
  | nil => rfl
  | cons c rest => rw [List.dropWhile_cons, if_neg (by simp [(h c rfl).1])]

theorem EndsNumber.fractionPart? {rest : List Char} (h : EndsNumber rest) :
    fractionPart? rest = some (none, rest) := by
  unfold Json.fractionPart?
  split
  · next cs => exact absurd rfl (h '.' rfl).2.1
  · rfl

theorem EndsNumber.exponentPart? {rest : List Char} (h : EndsNumber rest) :
    exponentPart? rest = some (none, rest) := by
  cases rest with
  | nil => rfl
  | cons c rest =>
      obtain ⟨-, -, hlower, hupper⟩ := h c rfl
      simp [Json.exponentPart?, hlower, hupper]

theorem accumulate_digits {cs : List Char} {acc : Nat}
    (hsize : Nat.ofDigitChars 10 cs acc < UInt64.size) :
    Literal.accumulate acc cs = (Nat.ofDigitChars 10 cs acc, []) := by
  induction cs generalizing acc with
  | nil => rfl
  | cons c cs ih =>
      rw [Nat.ofDigitChars_cons] at hsize ⊢
      have hnext : 10 * acc + (c.toNat - 48) < UInt64.size :=
        Nat.lt_of_le_of_lt (Integer.le_ofDigitChars _ cs) hsize
      rw [Literal.accumulate, if_pos hnext]
      exact ih hsize

theorem numberLiteral_toDigits (n : UInt64) {rest : List Char} (hrest : EndsNumber rest) :
    numberLiteral false (Nat.toDigits 10 n.toNat ++ rest) = some (.ofUInt64 n, rest) := by
  have hdigits := Decimal.isDigit_toDigits n.toNat
  have htake : (Nat.toDigits 10 n.toNat ++ rest).takeWhile Char.isDigit =
      Nat.toDigits 10 n.toNat := by
    rw [List.takeWhile_append_of_pos hdigits, hrest.takeWhile, List.append_nil]
  have hdrop : (Nat.toDigits 10 n.toNat ++ rest).dropWhile Char.isDigit = rest := by
    rw [List.dropWhile_append_of_pos hdigits, hrest.dropWhile]
  have hform : ((Nat.toDigits 10 n.toNat).isEmpty ||
      ((Nat.toDigits 10 n.toNat).head? == some '0' &&
        decide (1 < (Nat.toDigits 10 n.toNat).length))) = false := by
    cases hshape : Nat.toDigits 10 n.toNat with
    | nil => exact absurd hshape Nat.toDigits_ne_nil
    | cons c cs =>
        by_cases hzero : c = '0'
        · subst hzero
          rw [Integer.length_toDigits_of_head hshape]
          rfl
        · simp [hzero]
  have hread : Nat.ofDigitChars 10 (Nat.toDigits 10 n.toNat) 0 = n.toNat :=
    Nat.ofDigitChars_ten_toDigits
  have haccumulate : Literal.accumulate 0 (Nat.toDigits 10 n.toNat) = (n.toNat, []) := by
    rw [accumulate_digits (by rw [hread]; exact n.toNat_lt), hread]
  simp only [numberLiteral, htake, hform, hdrop, hrest.fractionPart?, Literal.number?, haccumulate]
  simp [hrest.exponentPart?, ofUInt64]

/-! ## Texts -/

theorem codeUnit?_control : ∀ n < 0x20,
    codeUnit? '0' '0' (Text.hexDigit (n / 16)) (Text.hexDigit (n % 16)) = some n := by
  decide

/-- A character that is not escaped stands for itself. -/
theorem textUnits_plain {c : Char} (hquote : c ≠ '"') (hslash : c ≠ '\\') (hlow : ¬ c.toNat < 0x20)
    (tail : List Char) :
    textUnits (c :: tail) = (textUnits tail).map fun found => (.char c :: found.1, found.2) := by
  rw [textUnits.eq_def]
  split
  · next heq => cases heq
  · next heq =>
      cases heq
      exact absurd rfl hquote
  · next heq =>
      cases heq
      exact absurd rfl hslash
  · next heq =>
      cases heq
      exact absurd rfl hslash
  · next heq =>
      cases heq
      rw [if_neg (by simp [hslash, hlow])]
      cases textUnits tail <;> rfl

theorem textUnits_short {e c : Char} (hshort : shortEscape? e = some c) (tail : List Char) :
    textUnits ('\\' :: e :: tail) =
      (textUnits tail).map fun found => (.char c :: found.1, found.2) := by
  rw [textUnits.eq_def]
  split
  · next heq => cases heq
  · next heq => cases heq
  · next heq =>
      cases heq
      cases hshort
  · next heq =>
      cases heq
      rw [hshort]
      cases textUnits tail <;> rfl
  · next _ hescape heq =>
      cases heq
      exact absurd rfl (hescape _ _ rfl)

theorem textUnits_control {n : Nat} (hlow : n < 0x20) (tail : List Char) :
    textUnits ('\\' :: 'u' :: '0' :: '0' :: Text.hexDigit (n / 16) :: Text.hexDigit (n % 16) ::
        tail) =
      (textUnits tail).map fun found => (.unit n :: found.1, found.2) := by
  rw [textUnits, codeUnit?_control n hlow]
  cases textUnits tail <;> rfl

/-- A written character is read as one unit, which stands for the character. -/
theorem textUnits_escapeChars (c : Char) :
    ∃ u, (∀ tail, textUnits (escapeChars c ++ tail) =
        (textUnits tail).map fun found => (u :: found.1, found.2)) ∧
      ∀ us, charsOfUnits? (u :: us) = (charsOfUnits? us).map (c :: ·) := by
  have hshort {c e : Char} (he : shortEscape? e = some c) (tail : List Char) :=
    textUnits_short he tail
  unfold escapeChars
  split
  · exact ⟨.char '"', hshort rfl, fun _ => rfl⟩
  · exact ⟨.char '\\', hshort rfl, fun _ => rfl⟩
  · exact ⟨.char '\x08', hshort rfl, fun _ => rfl⟩
  · exact ⟨.char '\x0c', hshort rfl, fun _ => rfl⟩
  · exact ⟨.char '\n', hshort rfl, fun _ => rfl⟩
  · exact ⟨.char '\r', hshort rfl, fun _ => rfl⟩
  · exact ⟨.char '\t', hshort rfl, fun _ => rfl⟩
  · next hquote hslash _ _ _ _ _ =>
      split
      · next hlow =>
          refine ⟨.unit c.toNat, textUnits_control hlow, ?_⟩
          intro us
          have hhigh : ¬ (0xd800 ≤ c.toNat ∧ c.toNat < 0xdc00) := by omega
          have hlone : ¬ (0xdc00 ≤ c.toNat ∧ c.toNat < 0xe000) := by omega
          rw [charsOfUnits?.eq_def]
          simp only [if_neg hhigh, if_neg hlone, Char.ofNat_toNat]
      · next hlow =>
          exact ⟨.char c, textUnits_plain hquote hslash hlow, fun _ => rfl⟩

theorem textUnits_escaped (cs rest : List Char) :
    ∃ us, textUnits (cs.flatMap escapeChars ++ '"' :: rest) = some (us, rest) ∧
      charsOfUnits? us = some cs := by
  induction cs with
  | nil => exact ⟨[], by rw [List.flatMap_nil, List.nil_append, textUnits], rfl⟩
  | cons c cs ih =>
      obtain ⟨us, hus, hchars⟩ := ih
      obtain ⟨u, hu, huchars⟩ := textUnits_escapeChars c
      refine ⟨u :: us, ?_, ?_⟩
      · rw [List.flatMap_cons, List.append_assoc, hu, hus]
        rfl
      · rw [huchars, hchars]
        rfl

/-- A text is read back from behind its opening quote. -/
theorem textLiteral_escaped (s : String) (rest : List Char) :
    textLiteral (s.toList.flatMap escapeChars ++ '"' :: rest) = some (some s, rest) := by
  obtain ⟨us, hus, hchars⟩ := textUnits_escaped s.toList rest
  rw [textLiteral, hus, Option.map_some, hchars, Option.map_some, String.ofList_toList]

theorem textChars_append (s : String) (rest : List Char) :
    textChars s ++ rest = '"' :: (s.toList.flatMap escapeChars ++ '"' :: rest) := by
  simp [textChars]

/-! ## Values -/

mutual

/-- All numbers are natural ones, and every literal stands for a value. -/
def isIntegral : Json → Bool
  | number (.natural _) => true
  | number _ => false
  | unreadable => false
  | array items => isIntegralItems items
  | object members => isIntegralMembers members
  | _ => true

def isIntegralItems : List Json → Bool
  | [] => true
  | j :: rest => isIntegral j && isIntegralItems rest

def isIntegralMembers : List (String × Json) → Bool
  | [] => true
  | (_, j) :: rest => isIntegral j && isIntegralMembers rest

end

theorem isSpace_of_isDigit {c : Char} (h : c.isDigit = true) : isSpace c = false := by
  simp [isSpace, Decimal.ne_of_isDigit h (d := ' ') rfl, Decimal.ne_of_isDigit h (d := '\n') rfl,
    Decimal.ne_of_isDigit h (d := '\t') rfl, Decimal.ne_of_isDigit h (d := '\r') rfl]

theorem exists_toDigits_cons (n : Nat) :
    ∃ c cs, Nat.toDigits 10 n = c :: cs ∧ c.isDigit = true := by
  obtain ⟨c, cs, hshape⟩ := List.exists_cons_of_ne_nil (Nat.toDigits_ne_nil (n := n) (b := 10))
  exact ⟨c, cs, hshape, Decimal.isDigit_toDigits n c (by rw [hshape]; exact List.mem_cons_self)⟩

/-- A digit begins a number and nothing else. -/
theorem value_digit {c : Char} (h : c.isDigit = true) (fuel : Nat) (cs : List Char) :
    value (fuel + 1) (c :: cs) = numberLiteral false (c :: cs) := by
  rw [value, skipSpace_cons (isSpace_of_isDigit h)]
  split
  all_goals first
    | rfl
    | next heq =>
        cases heq
        cases h

/-- The first character of a written value is not blank and closes nothing. -/
theorem chars_head {j : Json} (h : j.isIntegral = true) :
    ∃ c cs, chars j = c :: cs ∧ isSpace c = false ∧ c ≠ ']' ∧ c ≠ '}' := by
  cases j with
  | null => exact ⟨_, _, rfl, rfl, by decide, by decide⟩
  | bool b => cases b <;> exact ⟨_, _, rfl, rfl, by decide, by decide⟩
  | string s => exact ⟨_, _, rfl, rfl, by decide, by decide⟩
  | array items => exact ⟨_, _, rfl, rfl, by decide, by decide⟩
  | object members => exact ⟨_, _, rfl, rfl, by decide, by decide⟩
  | unreadable => cases h
  | number n =>
      cases n with
      | negative n => cases h
      | float x => cases h
      | natural n =>
          obtain ⟨c, cs, hshape, hdigit⟩ := exists_toDigits_cons n.toNat
          exact ⟨c, cs, hshape, isSpace_of_isDigit hdigit, Decimal.ne_of_isDigit hdigit rfl,
            Decimal.ne_of_isDigit hdigit rfl⟩

/-- What follows a value among others: a comma or a closing bracket or brace. -/
theorem endsNumber_mark {c : Char} (h : c = ',' ∨ c = ']' ∨ c = '}') (rest : List Char) :
    EndsNumber (c :: rest) := by
  apply endsNumber_cons
  rcases h with rfl | rfl | rfl <;> decide

theorem objectOf_named (ms : List (String × Json)) :
    objectOf (ms.map fun m => (some m.1, m.2)) = .object ms := by
  have hnamed : (ms.map fun m => (some m.1, m.2)).mapM
      (fun m : Option String × Json => m.1.map fun key => (key, m.2)) = some ms := by
    induction ms with
    | nil => rfl
    | cons m ms ih =>
        rw [List.map_cons, List.mapM_cons, ih]
        rfl
  rw [objectOf, hnamed]

theorem value_items {c : Char} (hspace : isSpace c = false) (hclose : c ≠ ']') (fuel : Nat)
    (cs : List Char) : value (fuel + 1) ('[' :: c :: cs) =
      (items fuel (c :: cs)).map fun found => (.array found.1, found.2) := by
  rw [value, skipSpace_cons rfl]
  simp only [skipSpace_cons hspace]
  split
  · next heq =>
      cases heq
      exact absurd rfl hclose
  · rfl

theorem value_members (fuel : Nat) (cs : List Char) : value (fuel + 1) ('{' :: '"' :: cs) =
    (members fuel ('"' :: cs)).map fun found => (objectOf found.1, found.2) := by
  rw [value, skipSpace_cons rfl]
  simp only [skipSpace_cons (c := '"') rfl]
  rfl

theorem itemChars_head {j : Json} (h : j.isIntegral = true) (js : List Json) :
    ∃ c cs, itemChars (j :: js) = c :: cs ∧ isSpace c = false ∧ c ≠ ']' := by
  obtain ⟨c, cs, hshape, hspace, hclose, -⟩ := chars_head h
  cases js with
  | nil => exact ⟨c, cs, hshape, hspace, hclose⟩
  | cons k js =>
      exact ⟨c, cs ++ ',' :: itemChars (k :: js), by simp [itemChars, hshape], hspace, hclose⟩

/-- A key and its colon are read in front of the value. -/
theorem members_key (key : String) (fuel : Nat) (rest : List Char) :
    members (fuel + 1) (textChars key ++ ':' :: rest) =
      (value fuel rest).bind fun found =>
        match skipSpace found.2 with
        | '}' :: rest => some ([(some key, found.1)], rest)
        | ',' :: rest => (members fuel rest).bind fun more =>
          some ((some key, found.1) :: more.1, more.2)
        | _ => none := by
  rw [textChars_append, members, skipSpace_cons rfl]
  simp only [textLiteral_escaped]
  rfl

mutual

/-- A value is read back from its text. -/
theorem value_chars : ∀ (j : Json), j.isIntegral = true → ∀ (fuel : Nat) (rest : List Char),
    (chars j).length ≤ fuel → EndsNumber rest → value fuel (chars j ++ rest) = some (j, rest)
  | j, h, 0, rest, hfuel, _ => by
      obtain ⟨c, cs, hshape, -⟩ := chars_head h
      rw [hshape] at hfuel
      cases hfuel
  | .null, _, fuel + 1, rest, _, _ => rfl
  | .bool true, _, fuel + 1, rest, _, _ => rfl
  | .bool false, _, fuel + 1, rest, _, _ => rfl
  | .number (.natural n), _, fuel + 1, rest, _, hrest => by
      obtain ⟨c, cs, hshape, hdigit⟩ := exists_toDigits_cons n.toNat
      have hread := numberLiteral_toDigits n hrest
      change value (fuel + 1) (Nat.toDigits 10 n.toNat ++ rest) = _
      rw [hshape, List.cons_append] at hread ⊢
      rw [value_digit hdigit, hread]
      rfl
  | .string s, _, fuel + 1, rest, _, _ => by
      change value (fuel + 1) (textChars s ++ rest) = _
      rw [textChars_append, value, skipSpace_cons rfl]
      simp only [textLiteral_escaped]
      rfl
  | .array [], _, fuel + 1, rest, _, _ => rfl
  | .array (j :: js), h, fuel + 1, rest, hfuel, _ => by
      obtain ⟨c, cs, hshape, hspace, hclose⟩ := itemChars_head (Bool.and_eq_true_iff.1 h).1 js
      have hlength : (itemChars (j :: js)).length < fuel := by
        simp only [chars, List.length_append, List.length_cons, List.length_nil] at hfuel
        omega
      have hitems := items_itemChars j js h fuel rest hlength
      have htext : chars (.array (j :: js)) ++ rest =
          '[' :: (itemChars (j :: js) ++ ']' :: rest) := by
        simp [chars]
      rw [hshape, List.cons_append] at hitems htext
      rw [htext, value_items hspace hclose, hitems]
      rfl
  | .object [], _, fuel + 1, rest, _, _ => rfl
  | .object ((key, j) :: ms), h, fuel + 1, rest, hfuel, _ => by
      have hlength : (memberChars ((key, j) :: ms)).length < fuel := by
        simp only [chars, List.length_append, List.length_cons, List.length_nil] at hfuel
        omega
      have hmembers := members_memberChars key j ms h fuel rest hlength
      obtain ⟨cs, hshape⟩ : ∃ cs, memberChars ((key, j) :: ms) = '"' :: cs := by
        cases ms <;> exact ⟨_, rfl⟩
      have htext : chars (.object ((key, j) :: ms)) ++ rest =
          '{' :: (memberChars ((key, j) :: ms) ++ '}' :: rest) := by
        simp [chars]
      rw [hshape, List.cons_append] at hmembers htext
      rw [htext, value_members, hmembers, Option.map_some, objectOf_named]

/-- Values parted by commas are read back up to the closing bracket. -/
theorem items_itemChars : ∀ (j : Json) (js : List Json), isIntegralItems (j :: js) = true →
    ∀ (fuel : Nat) (rest : List Char), (itemChars (j :: js)).length < fuel →
      items fuel (itemChars (j :: js) ++ ']' :: rest) = some (j :: js, rest)
  | j, [], h, fuel + 1, rest, hfuel => by
      have hvalue := value_chars j (Bool.and_eq_true_iff.1 h).1 fuel (']' :: rest)
        (Nat.le_of_lt_succ hfuel) (endsNumber_mark (by simp) rest)
      rw [itemChars, items, hvalue]
      rfl
  | j, k :: js, h, fuel + 1, rest, hfuel => by
      obtain ⟨hj, hjs⟩ := Bool.and_eq_true_iff.1 h
      have htext : itemChars (j :: k :: js) ++ ']' :: rest =
          chars j ++ ',' :: (itemChars (k :: js) ++ ']' :: rest) := by
        simp [itemChars]
      simp only [itemChars, List.length_append, List.length_cons] at hfuel
      have hvalue := value_chars j hj fuel (',' :: (itemChars (k :: js) ++ ']' :: rest))
        (by omega) (endsNumber_mark (by simp) _)
      have hitems := items_itemChars k js hjs fuel rest (by omega)
      rw [htext, items, hvalue]
      simp only [Option.bind_eq_bind, Option.bind_some, skipSpace_cons (c := ',') rfl, hitems]
      rfl

theorem members_memberChars : ∀ (key : String) (j : Json) (ms : List (String × Json)),
    isIntegralMembers ((key, j) :: ms) = true → ∀ (fuel : Nat) (rest : List Char),
      (memberChars ((key, j) :: ms)).length < fuel →
      members fuel (memberChars ((key, j) :: ms) ++ '}' :: rest) =
        some (((key, j) :: ms).map fun m => (some m.1, m.2), rest)
  | key, j, [], h, fuel + 1, rest, hfuel => by
      have htext : memberChars [(key, j)] ++ '}' :: rest =
          textChars key ++ ':' :: (chars j ++ '}' :: rest) := by
        simp [memberChars]
      simp only [memberChars, List.length_append, List.length_cons] at hfuel
      have hvalue := value_chars j (Bool.and_eq_true_iff.1 h).1 fuel ('}' :: rest)
        (by omega) (endsNumber_mark (by simp) rest)
      rw [htext, members_key, hvalue]
      rfl
  | key, j, (key', k) :: ms, h, fuel + 1, rest, hfuel => by
      obtain ⟨hj, hms⟩ := Bool.and_eq_true_iff.1 h
      have htext : memberChars ((key, j) :: (key', k) :: ms) ++ '}' :: rest =
          textChars key ++ ':' ::
            (chars j ++ ',' :: (memberChars ((key', k) :: ms) ++ '}' :: rest)) := by
        simp [memberChars]
      simp only [memberChars, List.length_append, List.length_cons] at hfuel
      have hvalue := value_chars j hj fuel (',' :: (memberChars ((key', k) :: ms) ++ '}' :: rest))
        (by omega) (endsNumber_mark (by simp) _)
      have hmembers := members_memberChars key' k ms hms fuel rest (by omega)
      rw [htext, members_key, hvalue, Option.bind_some]
      simp only [skipSpace_cons (c := ',') rfl, hmembers]
      rfl

end

/-- A whole document is read back. -/
theorem parse?_print {j : Json} (h : j.isIntegral = true) : parse? j.print = some j := by
  have hvalue := value_chars j h (2 * (chars j).length + 2) [] (by omega) endsNumber_nil
  rw [List.append_nil] at hvalue
  rw [parse?, print, String.toList_ofList]
  simp only [hvalue]
  rfl

end CashWallet.Json
