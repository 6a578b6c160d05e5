import CashWallet.Json.Document
import CashWallet.Proofs.Bytes.Utf8
import CashWallet.Proofs.Json.ReadBack

/-!
# Documents are read from their bytes

The bytes of a text are read as the text. Malformed parts of a literal do not keep what stands
behind it from being read.
-/

namespace CashWallet.Json

theorem documentChars_cons {c : Char} (h : c ≠ '\\') (rest : List (Option Char)) :
    documentChars (some c :: rest) = c :: documentChars rest := by
  rw [documentChars] <;> simp [h]

/-- Characters stand for themselves. -/
theorem documentChars_map_some : ∀ cs : List Char, documentChars (cs.map some) = cs
  | [] => rfl
  | [c] => by
      by_cases h : c = '\\'
      · rw [h]
        rfl
      · exact documentChars_cons h []
  | c :: d :: cs => by
      by_cases h : c = '\\'
      · rw [h, List.map_cons, List.map_cons, documentChars, documentChars_map_some cs]
      · rw [List.map_cons, documentChars_cons h, documentChars_map_some (d :: cs)]

/-- The bytes of a document are read as its text. -/
theorem parseBytes?_utf8Bytes (text : String) : parseBytes? (utf8Bytes text) = parse? text := by
  rw [parseBytes?, Utf8.decode_utf8Bytes, documentChars_map_some, String.ofList_toList]

theorem documentChars_escapeChars (c : Char) (rest : List (Option Char)) :
    documentChars ((escapeChars c).map some ++ rest) = escapeChars c ++ documentChars rest := by
  unfold escapeChars
  split
  iterate 7 rfl
  next hslash _ _ _ _ _ =>
    split
    · next hlow =>
      have hdigit : ∀ n < 0x20, Text.hexDigit (n / 16) ≠ '\\' ∧ Text.hexDigit (n % 16) ≠ '\\' := by
        decide
      obtain ⟨hhigh, hlast⟩ := hdigit c.toNat hlow
      simp [documentChars, documentChars_cons, hhigh, hlast]
    · exact documentChars_cons hslash rest

theorem textUnits_halfPair (tail : List Char) :
    textUnits (halfPair ++ tail) =
      (textUnits tail).map fun found => (.unit 0xd800 :: .unit 0xd800 :: found.1, found.2) := by
  have hunit : codeUnit? 'd' '8' '0' '0' = some 0xd800 := by decide
  simp only [halfPair, List.cons_append, List.nil_append, textUnits, hunit]
  cases textUnits tail <;> rfl

/-! ## Malformed parts -/

/-- The letters of a literal behind its opening quote: characters as they are written, and malformed
parts. -/
def literalLetters : List (Option Char) → List (Option Char)
  | [] => [some '"']
  | none :: letters => none :: literalLetters letters
  | some c :: letters => (escapeChars c).map some ++ literalLetters letters

theorem textUnits_literalLetters (letters rest : List (Option Char)) :
    ∃ us, textUnits (documentChars (literalLetters letters ++ rest)) =
        some (us, documentChars rest) ∧ charsOfUnits? us = letters.mapM id := by
  induction letters with
  | nil =>
      refine ⟨[], ?_, rfl⟩
      rw [literalLetters, List.singleton_append, documentChars_cons (by decide), textUnits]
  | cons letter letters ih =>
      obtain ⟨us, hus, hchars⟩ := ih
      cases letter with
      | none =>
          refine ⟨.unit 0xd800 :: .unit 0xd800 :: us, ?_, rfl⟩
          rw [literalLetters, List.cons_append, documentChars, textUnits_halfPair, hus]
          rfl
      | some c =>
          obtain ⟨u, hu, huchars⟩ := textUnits_escapeChars c
          refine ⟨u :: us, ?_, ?_⟩
          · rw [literalLetters, List.append_assoc, documentChars_escapeChars, hu, hus]
            rfl
          · rw [huchars, hchars, List.mapM_cons]
            cases letters.mapM id <;> rfl

/-- A literal is read to its end whatever parts of it are malformed, and it stands for a text
exactly if there are none. -/
theorem textLiteral_documentChars (letters rest : List (Option Char)) :
    textLiteral (documentChars (literalLetters letters ++ rest)) =
      some ((letters.mapM id).map String.ofList, documentChars rest) := by
  obtain ⟨us, hus, hchars⟩ := textUnits_literalLetters letters rest
  rw [textLiteral, hus, Option.map_some, hchars]

example : parseBytes? [0x5b, 0x22, 0xff, 0x22, 0x5d] = some (.array [.unreadable]) := by
  cbv

end CashWallet.Json
