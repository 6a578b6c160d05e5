import CashWallet.Proofs.Bytes.HexText
import CashWallet.Proofs.Number.Digits
import CashWallet.Text.Base58

/-!
# Base 58 is a bijection

A byte string and its text are the same digits in two bases, and the characters of the alphabet are
distinct. So a text that reads as some bytes is the one text of these bytes, and every byte string
has one.
-/

namespace CashWallet.Base58

open Digits (rebase)

/-- The digits are visible characters of ASCII, and each is read as its value. -/
theorem digitValue?_digit : ∀ v < 58,
    digitValue? (digit v) = some v ∧ 32 < (digit v).toNat ∧ (digit v).toNat < 127 := by
  decide +kernel

theorem digitValue?_eq_some {code : UInt8} {v : Nat} (h : digitValue? code = some v) :
    v < 58 ∧ digit v = code := by
  obtain ⟨hv, hcode, -⟩ := List.findIdx?_eq_some_iff_getElem.1 h
  refine ⟨hv, ?_⟩
  rw [digit, List.getD_eq_getElem?_getD, List.getElem?_eq_getElem hv, Option.getD_some]
  exact beq_iff_eq.1 hcode

/-- The text of some bytes is their digits in base 58. -/
theorem encodeBytes_eq (bs : Bytes) :
    encodeBytes bs = (rebase 256 58 (bs.map UInt8.toNat)).map digit := by
  have hzeros : (bs.takeWhile (· == 0)).map (fun _ => zeroDigit) =
      ((bs.map UInt8.toNat).takeWhile (· == 0)).map digit := by
    rw [List.takeWhile_map, List.map_map]
    have hsame : (fun n : Nat => n == 0) ∘ UInt8.toNat = fun b : UInt8 => b == 0 := by
      ext b
      simp [← UInt8.toNat_inj]
    rw [hsame]
    apply List.map_congr_left
    intro b hb
    have hzero : b = 0 := by simpa using List.mem_takeWhile_imp hb
    rw [hzero]
    rfl
  rw [encodeBytes, rebase, List.map_append, hzeros, List.map_reverse, List.map_reverse]

theorem ofDigitValues_eq (values : List Nat) :
    ofDigitValues values = (rebase 58 256 values).map UInt8.ofNat := by
  have hzeros : (values.takeWhile (· == 0)).map (fun _ => (0 : UInt8)) =
      (values.takeWhile (· == 0)).map UInt8.ofNat := by
    apply List.map_congr_left
    intro v hv
    have hzero : v = 0 := by simpa using List.mem_takeWhile_imp hv
    rw [hzero]
    rfl
  rw [ofDigitValues, rebase, List.map_append, hzeros, List.map_reverse]

theorem digitValues_digits (position : Nat) {values : List Nat} (h : ∀ v ∈ values, v < 58) :
    digitValues position (values.map digit) = .ok values := by
  induction values generalizing position with
  | nil => rfl
  | cons v values ih =>
      obtain ⟨hv, hvalues⟩ := List.forall_mem_cons.1 h
      obtain ⟨hvalue, -, hascii⟩ := digitValue?_digit v hv
      have hplain : ¬ (127 : UInt8) < digit v := by
        rw [UInt8.lt_iff_toNat_lt]
        exact Nat.not_lt_of_lt hascii
      rw [List.map_cons, digitValues, if_neg hplain, hvalue]
      simp only [ih (position + 1) hvalues]

theorem digitValues_eq_ok {position : Nat} {text : Bytes} {values : List Nat}
    (h : digitValues position text = .ok values) :
    text = values.map digit ∧ ∀ v ∈ values, v < 58 := by
  induction text generalizing position values with
  | nil =>
      cases h
      exact ⟨rfl, nofun⟩
  | cons code text ih =>
      rw [digitValues] at h
      split at h
      · cases h
      · split at h
        · cases h
        · next v hv =>
            obtain ⟨hlt, hcode⟩ := digitValue?_eq_some hv
            split at h
            · next rest hrest =>
                cases h
                obtain ⟨htext, hvalues⟩ := ih hrest
                exact ⟨by rw [List.map_cons, hcode, ← htext], List.forall_mem_cons.2 ⟨hlt, hvalues⟩⟩
            · cases h

theorem decodeBytes_encodeBytes (bs : Bytes) : decodeBytes (encodeBytes bs) = .ok bs := by
  have hbytes : ∀ d ∈ bs.map UInt8.toNat, d < 256 := by
    intro d hd
    obtain ⟨b, -, rfl⟩ := List.mem_map.1 hd
    exact b.toNat_lt
  have hvalues : ∀ v ∈ rebase 256 58 (bs.map UInt8.toNat), v < 58 := fun v hv =>
    Digits.lt_of_mem_rebase (by decide) hv
  have hback : (bs.map UInt8.toNat).map UInt8.ofNat = bs := by
    rw [List.map_map]
    exact List.map_id'' (fun _ => UInt8.ofNat_toNat) bs
  rw [decodeBytes, encodeBytes_eq, digitValues_digits 0 hvalues, Except.map, ofDigitValues_eq,
    Digits.rebase_rebase (by decide) (by decide) hbytes, hback]

theorem encodeBytes_of_decodeBytes {text bs : Bytes} (h : decodeBytes text = .ok bs) :
    encodeBytes bs = text := by
  unfold decodeBytes at h
  cases hvalues : digitValues 0 text with
  | error fault =>
      rw [hvalues] at h
      cases h
  | ok values =>
      rw [hvalues] at h
      cases h
      obtain ⟨htext, hlt⟩ := digitValues_eq_ok hvalues
      have hback : ((rebase 58 256 values).map UInt8.ofNat).map UInt8.toNat =
          rebase 58 256 values := by
        rw [List.map_map]
        refine (List.map_congr_left ?_).trans (List.map_id _)
        intro d hd
        exact UInt8.toNat_ofNat_of_lt' (Digits.lt_of_mem_rebase (by decide) hd)
      rw [encodeBytes_eq, ofDigitValues_eq, hback,
        Digits.rebase_rebase (by decide) (by decide) hlt, htext]

theorem encodeBytes_visible (bs : Bytes) : ∀ d ∈ encodeBytes bs, 32 < d.toNat ∧ d.toNat < 127 := by
  intro d hd
  rw [encodeBytes_eq] at hd
  obtain ⟨v, hv, rfl⟩ := List.mem_map.1 hd
  exact (digitValue?_digit v (Digits.lt_of_mem_rebase (by decide) hv)).2

theorem utf8Bytes_encode (bs : Bytes) : utf8Bytes (encode bs) = encodeBytes bs := by
  apply utf8Bytes_ofList_ascii
  intro d hd
  exact Nat.lt_succ_of_lt (encodeBytes_visible bs d hd).2

/-- A text reads as some bytes exactly if it is their text. -/
theorem decode_eq_ok_iff {text : String} {bs : Bytes} :
    decode text = .ok bs ↔ text = encode bs := by
  constructor
  · intro h
    apply utf8Bytes_inj.1
    rw [utf8Bytes_encode, encodeBytes_of_decodeBytes h]
  · rintro rfl
    rw [decode, utf8Bytes_encode, decodeBytes_encodeBytes]

theorem decode_encode (bs : Bytes) : decode (encode bs) = .ok bs :=
  decode_eq_ok_iff.2 rfl

theorem encode_inj {bs bs' : Bytes} : encode bs = encode bs' ↔ bs = bs' := by
  rw [← decode_eq_ok_iff, decode_encode, Except.ok.injEq]

end CashWallet.Base58
