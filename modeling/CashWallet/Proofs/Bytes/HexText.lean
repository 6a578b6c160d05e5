import CashWallet.Bytes.Hex
import CashWallet.Proofs.Bytes.Utf8
import Mathlib.Data.List.Basic

/-!
# Hexadecimal text is read back

Each byte is read back from its two digits. The text of some bytes is ASCII, so that its UTF-8 form
is the digits themselves. Nothing else is read as these bytes but this text in another letter case.
-/

namespace CashWallet

/-- A byte is the number of its character. -/
theorem toNat_ofNat_byte (b : UInt8) : (Char.ofNat b.toNat).toNat = b.toNat := by
  have hbyte := b.toNat_lt
  exact toNat_ofNat_of_isValidChar (Or.inl (by omega))

/-- The UTF-8 form of ASCII characters is their numbers. -/
theorem utf8Bytes_ofList_ascii {codes : Bytes} (h : ∀ b ∈ codes, b.toNat < 128) :
    utf8Bytes (String.ofList (codes.map fun b => Char.ofNat b.toNat)) = codes := by
  have hchar (b : UInt8) (hb : b.toNat < 128) :
      String.utf8EncodeChar (Char.ofNat b.toNat) = [b] := by
    rw [← (Utf8.Writes.one hb).eq_encodeChar, UInt8.ofNat_toNat]
  have hcodes : (codes.map fun b => Char.ofNat b.toNat).flatMap String.utf8EncodeChar = codes := by
    induction codes with
    | nil => rfl
    | cons b codes ih =>
        rw [List.map_cons, List.flatMap_cons, hchar b (h b List.mem_cons_self),
          ih fun c hc => h c (List.mem_cons_of_mem b hc)]
        rfl
  rw [utf8Bytes_ofList, hcodes]

/-- Only an ASCII character has one as its lower case. -/
theorem ascii_of_toLower {c : Char} (h : c.toLower.toNat < 128) : c.toNat < 128 := by
  by_cases hupper : c.val ≥ 'A'.val ∧ c.val ≤ 'Z'.val
  · have hle : c.toNat ≤ 90 := UInt32.le_iff_toNat_le.1 hupper.2
    exact Nat.lt_of_le_of_lt hle (by decide)
  · have hlower : c.toLower = c := dif_neg hupper
    rwa [hlower] at h

/-- A text of ASCII characters is told by its UTF-8 form. -/
theorem chars_of_utf8Bytes_ascii {text : String} (h : ∀ b ∈ utf8Bytes text, b.toNat < 128) :
    (utf8Bytes text).map (fun b => Char.ofNat b.toNat) = text.toList := by
  have htext : String.ofList ((utf8Bytes text).map fun b => Char.ofNat b.toNat) = text :=
    utf8Bytes_inj.1 (utf8Bytes_ofList_ascii h)
  rw [← congrArg String.toList htext, String.toList_ofList]

/-- The UTF-8 form of ASCII characters is in ASCII. -/
theorem utf8Bytes_ascii {text : String} (h : ∀ c ∈ text.toList, c.toNat < 128) :
    ∀ b ∈ utf8Bytes text, b.toNat < 128 := by
  let codes := text.toList.map fun c => UInt8.ofNat c.toNat
  have hcode {c : Char} (hc : c ∈ text.toList) : (UInt8.ofNat c.toNat).toNat = c.toNat :=
    UInt8.toNat_ofNat_of_lt' (Nat.lt_trans (h c hc) (by decide))
  have hascii : ∀ b ∈ codes, b.toNat < 128 := by
    intro b hb
    obtain ⟨c, hc, rfl⟩ := List.mem_map.1 hb
    rw [hcode hc]
    exact h c hc
  have hchars : codes.map (fun b => Char.ofNat b.toNat) = text.toList := by
    rw [List.map_map]
    refine (List.map_congr_left fun c hc => ?_).trans (List.map_id _)
    rw [Function.comp_apply, hcode hc, Char.ofNat_toNat, id]
  have hcodes := utf8Bytes_ofList_ascii hascii
  rw [hchars, String.ofList_toList] at hcodes
  rwa [hcodes]

namespace Hex

/-- Each digit of a byte is a visible character of ASCII and is read back as the half that it stands
for. -/
theorem digit_halves (b : UInt8) :
    digitValue? (digit (b >>> 4)) = some (b >>> 4) ∧
      digitValue? (digit (b &&& 15)) = some (b &&& 15) ∧
      (b >>> 4) <<< 4 ||| (b &&& 15) = b ∧
      (32 < (digit (b >>> 4)).toNat ∧ (digit (b >>> 4)).toNat < 127) ∧
      (32 < (digit (b &&& 15)).toNat ∧ (digit (b &&& 15)).toNat < 127) := by
  have hall : ∀ n < 256,
      digitValue? (digit (UInt8.ofNat n >>> 4)) = some (UInt8.ofNat n >>> 4) ∧
        digitValue? (digit (UInt8.ofNat n &&& 15)) = some (UInt8.ofNat n &&& 15) ∧
        (UInt8.ofNat n >>> 4) <<< 4 ||| (UInt8.ofNat n &&& 15) = UInt8.ofNat n ∧
        (32 < (digit (UInt8.ofNat n >>> 4)).toNat ∧ (digit (UInt8.ofNat n >>> 4)).toNat < 127) ∧
        (32 < (digit (UInt8.ofNat n &&& 15)).toNat ∧
          (digit (UInt8.ofNat n &&& 15)).toNat < 127) := by
    decide +kernel
  have h := hall b.toNat b.toNat_lt
  rwa [UInt8.ofNat_toNat] at h

theorem encodeBytes_visible (bs : Bytes) : ∀ d ∈ encodeBytes bs, 32 < d.toNat ∧ d.toNat < 127 := by
  intro d hd
  obtain ⟨b, -, hd⟩ := List.mem_flatMap.1 hd
  obtain ⟨-, -, -, hhigh, hlow⟩ := digit_halves b
  rcases List.mem_cons.1 hd with rfl | hd
  · exact hhigh
  · rwa [List.mem_singleton.1 hd]

theorem encodeBytes_ascii (bs : Bytes) : ∀ d ∈ encodeBytes bs, d.toNat < 128 := by
  intro d hd
  exact Nat.lt_succ_of_lt (encodeBytes_visible bs d hd).2

theorem decodePairs_encodeBytes (position : Nat) (bs : Bytes) :
    decodePairs position (encodeBytes bs) = .ok bs := by
  induction bs generalizing position with
  | nil => rfl
  | cons b bs ih =>
      obtain ⟨hhigh, hlow, hbyte, -, -⟩ := digit_halves b
      have htail := ih (position + 2)
      rw [encodeBytes] at htail ⊢
      simp only [List.flatMap_cons, List.cons_append, List.nil_append, decodePairs, hhigh, hlow,
        htail, hbyte]

theorem length_encodeBytes (bs : Bytes) : (encodeBytes bs).length = 2 * bs.length := by
  induction bs with
  | nil => rfl
  | cons b bs ih =>
      rw [encodeBytes] at ih ⊢
      simp only [List.flatMap_cons, List.length_append, ih, List.length_cons, List.length_nil]
      omega

theorem decode_encode (bs : Bytes) : decode (encode bs) = .ok bs := by
  have heven : (encodeBytes bs).length % 2 ≠ 1 := by
    rw [length_encodeBytes]
    omega
  rw [decode, encode, utf8Bytes_ofList_ascii (encodeBytes_ascii bs), decodeBytes, if_neg heven,
    decodePairs_encodeBytes]

/-- The digits in lower case. -/
def lowerDigits : List Char :=
  "0123456789abcdef".toList

theorem encode_lowerDigits (bs : Bytes) : ∀ c ∈ (encode bs).toList, c ∈ lowerDigits := by
  have hall : ∀ n < 256,
      Char.ofNat (digit (UInt8.ofNat n >>> 4)).toNat ∈ lowerDigits ∧
        Char.ofNat (digit (UInt8.ofNat n &&& 15)).toNat ∈ lowerDigits := by
    decide +kernel
  intro c hc
  rw [encode, String.toList_ofList] at hc
  obtain ⟨d, hd, rfl⟩ := List.mem_map.1 hc
  obtain ⟨b, -, hd⟩ := List.mem_flatMap.1 hd
  obtain ⟨hhigh, hlow⟩ := hall b.toNat b.toNat_lt
  rw [UInt8.ofNat_toNat] at hhigh hlow
  rcases List.mem_cons.1 hd with rfl | hd
  · exact hhigh
  · rwa [List.mem_singleton.1 hd]

/-- The digits in both cases. -/
def digits : List Char :=
  "0123456789abcdefABCDEF".toList

theorem mem_digits_of_toLower {c : Char} (h : c.toLower ∈ lowerDigits) : c ∈ digits := by
  have hall : ∀ n < 128, (Char.ofNat n).toLower ∈ lowerDigits → Char.ofNat n ∈ digits := by
    decide +kernel
  have hascii : ∀ d ∈ lowerDigits, d.toNat < 128 := List.forall_iff_forall_mem.1 (by decide)
  have hc := hall c.toNat (ascii_of_toLower (hascii _ h))
  rw [Char.ofNat_toNat] at hc
  exact hc h

/-- Hexadecimal text has letters and digits only. -/
theorem encode_alphanumeric (bs : Bytes) : (encode bs).toList.all Char.isAlphanum = true := by
  have hall : ∀ c ∈ lowerDigits, c.isAlphanum = true := List.forall_iff_forall_mem.1 (by decide)
  exact List.all_eq_true.2 fun c hc => hall c (encode_lowerDigits bs c hc)

theorem length_encode (bs : Bytes) : (encode bs).toList.length = 2 * bs.length := by
  rw [encode, String.toList_ofList, List.length_map, length_encodeBytes]

theorem encode_inj {bs bs' : Bytes} : encode bs = encode bs' ↔ bs = bs' := by
  constructor
  · intro h
    have hread := decode_encode bs
    rw [h, decode_encode] at hread
    exact (Except.ok.inj hread).symm
  · exact congrArg encode

theorem encode_filled {bs : Bytes} (h : bs ≠ []) : ¬ (encode bs).isEmpty := by
  rw [String.isEmpty_iff]
  intro hempty
  have hread := decode_encode bs
  rw [hempty] at hread
  exact h (Except.ok.inj hread).symm

/-! ## Either letter case -/

/-- A digit is read as the value whose lower-case digit it is. -/
theorem digitValue?_eq_some_iff {b v : UInt8} : digitValue? b = some v ↔
    v < 16 ∧ (Char.ofNat b.toNat).toLower = Char.ofNat (digit v).toNat := by
  have hall : ∀ n < 256, (digitValue? (UInt8.ofNat n)).all (· < 16) = true ∧
      ∀ m < 16, digitValue? (UInt8.ofNat n) = some (UInt8.ofNat m) ↔
        (Char.ofNat (UInt8.ofNat n).toNat).toLower =
          Char.ofNat (digit (UInt8.ofNat m)).toNat := by
    decide +kernel
  obtain ⟨hlt, hvalue⟩ := hall b.toNat b.toNat_lt
  rw [UInt8.ofNat_toNat] at hlt hvalue
  have hiff (h : v < 16) : digitValue? b = some v ↔
      (Char.ofNat b.toNat).toLower = Char.ofNat (digit v).toNat := by
    have h := hvalue v.toNat (UInt8.lt_iff_toNat_lt.1 h)
    rwa [UInt8.ofNat_toNat] at h
  constructor
  · intro h
    have hv : v < 16 := by simpa [h] using hlt
    exact ⟨hv, (hiff hv).1 h⟩
  · rintro ⟨hv, h⟩
    exact (hiff hv).2 h

/-- Two digits make one byte, and the byte tells the digits. -/
theorem eq_pair_iff {b high low : UInt8} (hhigh : high < 16) (hlow : low < 16) :
    high <<< 4 ||| low = b ↔ high = b >>> 4 ∧ low = b &&& 15 := by
  have hall : ∀ n < 16, ∀ m < 16,
      (UInt8.ofNat n <<< 4 ||| UInt8.ofNat m) >>> 4 = UInt8.ofNat n ∧
        (UInt8.ofNat n <<< 4 ||| UInt8.ofNat m) &&& 15 = UInt8.ofNat m := by
    decide +kernel
  obtain ⟨h, hl⟩ := hall high.toNat (UInt8.lt_iff_toNat_lt.1 hhigh) low.toNat
    (UInt8.lt_iff_toNat_lt.1 hlow)
  rw [UInt8.ofNat_toNat, UInt8.ofNat_toNat] at h hl
  constructor
  · rintro rfl
    exact ⟨h.symm, hl.symm⟩
  · rintro ⟨rfl, rfl⟩
    exact (digit_halves b).2.2.1

theorem encodeBytes_cons (b : UInt8) (bs : Bytes) :
    encodeBytes (b :: bs) = digit (b >>> 4) :: digit (b &&& 15) :: encodeBytes bs := rfl

/-- Pairs of digits are read as some bytes exactly if they are their digits up to the case. -/
theorem decodePairs_eq_ok_iff {position : Nat} {codes bs : Bytes} :
    decodePairs position codes = .ok bs ↔
      codes.map (fun b => (Char.ofNat b.toNat).toLower) =
        (encodeBytes bs).map fun d => Char.ofNat d.toNat := by
  constructor
  · intro h
    fun_induction decodePairs position codes generalizing bs with
    | case1 =>
        cases h
        rfl
    | case5 position hi lo rest high low hlow hhigh tail htail ih =>
        cases h
        obtain ⟨hhigh, hhi⟩ := digitValue?_eq_some_iff.1 hhigh
        obtain ⟨hlow, hlo⟩ := digitValue?_eq_some_iff.1 hlow
        obtain ⟨hfirst, hsecond⟩ := (eq_pair_iff hhigh hlow).1 rfl
        rw [encodeBytes_cons, ← hfirst, ← hsecond, List.map_cons, List.map_cons, List.map_cons,
          List.map_cons, hhi, hlo, ih htail]
    | _ => cases h
  · intro h
    induction bs generalizing position codes with
    | nil =>
        cases List.map_eq_nil_iff.1 h
        rfl
    | cons b bs ih =>
        obtain ⟨hi, codes, rfl, hhi, h⟩ := List.map_eq_cons_iff.1 h
        obtain ⟨lo, rest, rfl, hlo, hrest⟩ := List.map_eq_cons_iff.1 h
        obtain ⟨hhalf, hhalf', hbyte, -, -⟩ := digit_halves b
        have hhigh := digitValue?_eq_some_iff.2 ⟨(digitValue?_eq_some_iff.1 hhalf).1, hhi⟩
        have hlow := digitValue?_eq_some_iff.2 ⟨(digitValue?_eq_some_iff.1 hhalf').1, hlo⟩
        simp only [decodePairs, hhigh, hlow, ih hrest, hbyte]

theorem decodePairs_even {position : Nat} {codes bs : Bytes}
    (h : decodePairs position codes = .ok bs) : codes.length = 2 * bs.length := by
  have hlength := congrArg List.length (decodePairs_eq_ok_iff.1 h)
  rwa [List.length_map, List.length_map, length_encodeBytes] at hlength

theorem decodeBytes_eq_ok_iff {codes bs : Bytes} :
    decodeBytes codes = .ok bs ↔ decodePairs 0 codes = .ok bs := by
  rw [decodeBytes]
  split
  · next hodd =>
      constructor
      · intro h
        cases h
      · intro h
        have heven := decodePairs_even h
        omega
  · rfl

/-- The characters are the digits of some bytes, in either case. -/
def Spells (bs : Bytes) (cs : List Char) : Prop :=
  cs.map Char.toLower = (encode bs).toList

instance (bs : Bytes) (cs : List Char) : Decidable (Spells bs cs) :=
  inferInstanceAs (Decidable (_ = _))

/-- A text is read as the bytes that it spells, and as no others. -/
theorem decode_eq_ok_iff {text : String} {bs : Bytes} :
    decode text = .ok bs ↔ Spells bs text.toList := by
  have hascii {cs : List Char} (h : cs.map Char.toLower = (encode bs).toList) :
      ∀ c ∈ cs, c.toNat < 128 := by
    intro c hc
    have hmem : c.toLower ∈ (encode bs).toList := h ▸ List.mem_map_of_mem hc
    obtain ⟨d, hd, heq⟩ := List.mem_map.1 (String.toList_ofList ▸ hmem)
    apply ascii_of_toLower
    rw [← heq, toNat_ofNat_byte]
    exact encodeBytes_ascii bs d hd
  have hcodes : decode text = .ok bs ↔
      ((utf8Bytes text).map fun b => Char.ofNat b.toNat).map Char.toLower =
        (encode bs).toList := by
    rw [decode, decodeBytes_eq_ok_iff, decodePairs_eq_ok_iff, encode, String.toList_ofList,
      List.map_map]
    rfl
  rw [Spells]
  constructor
  · intro h
    rw [hcodes] at h
    rwa [chars_of_utf8Bytes_ascii] at h
    intro b hb
    rw [← toNat_ofNat_byte]
    exact hascii h _ (List.mem_map_of_mem hb)
  · intro h
    rw [hcodes, chars_of_utf8Bytes_ascii (utf8Bytes_ascii (hascii h))]
    exact h

end Hex

end CashWallet
