import CashWallet.Proofs.Bytes.HexText
import CashWallet.Proofs.Text.Whitespace
import CashWallet.TxId

/-!
# Transaction ids and their texts

A text is read as an id exactly if it displays the id, in either letter case and with nothing but
blank space around it. The display form itself is one of these texts, and the only one in lower case
without blank space.
-/

namespace CashWallet

namespace Hex

theorem isBlank_digits : ∀ c ∈ digits, Text.isBlank c = false :=
  List.forall_iff_forall_mem.1 (by decide +kernel)

theorem decode_trim_eq_ok_iff {text : String} {bs : Bytes} :
    decode (Text.trim text) = .ok bs ↔ Spells bs (Text.trimChars text.toList) := by
  rw [decode_eq_ok_iff, Text.toList_trim]

end Hex

namespace TxId

variable {id : TxId} {text : String} {cs : List Char}

/-- The digits of an id in either case. -/
def Displays (id : TxId) (cs : List Char) : Prop :=
  cs.map Char.toLower = id.toHex.toList

theorem length_toHex (id : TxId) : id.toHex.toList.length = 64 := by
  rw [toHex, Hex.length_encode, List.length_reverse, id.length_bytes]

theorem displays_toHex (id : TxId) : id.Displays id.toHex.toList := by
  have hlower : ∀ c ∈ Hex.lowerDigits, c.toLower = c := List.forall_iff_forall_mem.1 (by decide)
  exact (List.map_congr_left fun c hc => hlower c (Hex.encode_lowerDigits _ c hc)).trans
    (List.map_id _)

theorem Displays.length (h : id.Displays cs) : cs.length = 64 := by
  rw [← length_toHex id, ← h, List.length_map]

theorem Displays.ne_nil (h : id.Displays cs) : cs ≠ [] := by
  rintro rfl
  cases h.length

theorem Displays.digits (h : id.Displays cs) : ∀ c ∈ cs, c ∈ Hex.digits := by
  intro c hc
  apply Hex.mem_digits_of_toLower
  apply Hex.encode_lowerDigits id.bytes.reverse
  rw [← toHex, ← h]
  exact List.mem_map_of_mem hc

theorem Displays.isBlank (h : id.Displays cs) : ∀ c ∈ cs, Text.isBlank c = false :=
  fun c hc => Hex.isBlank_digits c (h.digits c hc)

/-- A text is read as the id that it displays, and as no other. -/
theorem ofHex_eq_ok_iff : ofHex text = .ok id ↔ id.Displays (Text.trimChars text.toList) := by
  rw [Displays, toHex, ← Hex.Spells, ← Hex.decode_trim_eq_ok_iff, ofHex]
  cases Hex.decode (Text.trim text) with
  | error fault => simp
  | ok bs =>
      dsimp only
      constructor
      · intro h
        split at h
        · cases h
          rw [List.reverse_reverse]
        · cases h
      · intro h
        cases h
        rw [dif_pos (by rw [List.length_reverse, id.length_bytes])]
        simp only [List.reverse_reverse]

/-- The same for the order of the wire. -/
theorem ofInternalHex_eq_ok_iff :
    ofInternalHex text = .ok id ↔ Hex.Spells id.bytes (Text.trimChars text.toList) := by
  rw [← Hex.decode_trim_eq_ok_iff, ofInternalHex]
  cases Hex.decode (Text.trim text) with
  | error fault => simp
  | ok bs =>
      dsimp only
      rw [ofBytes]
      constructor
      · intro h
        split at h
        · cases h
          rfl
        · cases h
      · intro h
        cases h
        rw [dif_pos id.length_bytes]

theorem ofHex_toHex (id : TxId) : ofHex id.toHex = .ok id := by
  rw [ofHex_eq_ok_iff, Text.trimChars, Text.stripChars_eq_self (displays_toHex id).isBlank]
  exact displays_toHex id

/-- The display form of an id: 64 digits in lower case, displayed so by the id that they are read
as. -/
structure IsCanonical (text : String) : Prop where
  length : text.toList.length = 64
  digits : ∀ c ∈ text.toList, c ∈ Hex.lowerDigits
  displayed : ∃ id, ofHex text = .ok id ∧ id.toHex = text

theorem isCanonical_toHex (id : TxId) : IsCanonical id.toHex :=
  ⟨id.length_toHex, Hex.encode_lowerDigits _, id, id.ofHex_toHex, rfl⟩

end TxId

end CashWallet
