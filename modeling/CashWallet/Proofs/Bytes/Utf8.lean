import CashWallet.Bytes.Utf8
import Mathlib.Data.List.Basic

/-!
# Text is read back from its bytes

A character takes one to four bytes, and the first of them tells how many. Each of the others adds
six bits of its number. The bytes of a text are read as its characters, and all other bytes are
malformed somewhere.
-/

namespace CashWallet

theorem toNat_ofNat_of_isValidChar {n : Nat} (h : n.isValidChar) : (Char.ofNat n).toNat = n := by
  rw [Char.ofNat, dif_pos h]
  rfl

namespace Utf8

/-! ## The bytes of a character -/

/-- The byte that adds the last six bits of a number. -/
def continued (n : Nat) : UInt8 :=
  UInt8.ofNat (n % 64 + 128)

/-- The bytes of the character with a number. The numbers of half a surrogate pair are no
characters. -/
inductive Writes : Nat → Bytes → Prop where
  | one {n} (high : n < 0x80) : Writes n [UInt8.ofNat n]
  | two {n} (low : 0x80 ≤ n) (high : n < 0x800) :
      Writes n [UInt8.ofNat (n / 64 + 192), continued n]
  | three {n} (low : 0x800 ≤ n) (high : n < 0x10000) (whole : n < 0xd800 ∨ 0xdfff < n) :
      Writes n [UInt8.ofNat (n / 64 / 64 + 224), continued (n / 64), continued n]
  | four {n} (low : 0x10000 ≤ n) (high : n < 0x110000) :
      Writes n [UInt8.ofNat (n / 64 / 64 / 64 + 240), continued (n / 64 / 64), continued (n / 64),
        continued n]

theorem Writes.unique {n : Nat} {bs bs' : Bytes} (h : Writes n bs) (h' : Writes n bs') :
    bs = bs' := by
  cases h <;> cases h' <;> first | rfl | omega

theorem Writes.isValidChar {n : Nat} {bs : Bytes} (h : Writes n bs) : n.isValidChar := by
  cases h <;> (rw [Nat.isValidChar]; omega)

theorem writes_encodeChar (c : Char) : Writes c.toNat (String.utf8EncodeChar c) := by
  have hvalid : c.val.toNat < 0xd800 ∨ 0xdfff < c.val.toNat ∧ c.val.toNat < 0x110000 := c.valid
  change Writes c.val.toNat _
  rw [String.utf8EncodeChar]
  generalize c.val.toNat = n at hvalid ⊢
  split
  · exact .one (by omega)
  split
  · have hfirst : n / 64 % 32 = n / 64 := by omega
    rw [hfirst]
    exact .two (by omega) (by omega)
  split
  · have hfirst : n / 4096 % 16 = n / 64 / 64 := by omega
    rw [hfirst]
    exact .three (by omega) (by omega) (by omega)
  · have hfirst : n / 262144 % 8 = n / 64 / 64 / 64 := by omega
    have hsecond : n / 4096 % 64 = n / 64 / 64 % 64 := by omega
    rw [hfirst, hsecond]
    exact .four (by omega) (by omega)

theorem Writes.eq_encodeChar {n : Nat} {bs : Bytes} (h : Writes n bs) :
    bs = String.utf8EncodeChar (Char.ofNat n) := by
  have hwritten := writes_encodeChar (Char.ofNat n)
  rw [toNat_ofNat_of_isValidChar h.isValidChar] at hwritten
  exact h.unique hwritten

theorem Writes.ne_nil {n : Nat} {bs : Bytes} (h : Writes n bs) : bs ≠ [] := by
  cases h <;> exact List.cons_ne_nil _ _

/-! ## Single bytes -/

theorem first_one : ∀ n < 128, first (UInt8.ofNat n) = ([some (Char.ofNat n)], none) := by
  decide

theorem first_two : ∀ n < 32, 2 ≤ n →
    first (UInt8.ofNat (n + 192)) = ([], some ⟨1, 0x80, 0xbf, n⟩) := by
  decide

theorem first_three : ∀ n < 16, first (UInt8.ofNat (n + 224)) =
    ([], some ⟨2, if n = 0 then 0xa0 else 0x80, if n = 13 then 0x9f else 0xbf, n⟩) := by
  decide

theorem first_four : ∀ n < 5, first (UInt8.ofNat (n + 240)) =
    ([], some ⟨3, if n = 0 then 0x90 else 0x80, if n = 4 then 0x8f else 0xbf, n⟩) := by
  decide

theorem first_stray : ∀ n < 256, 128 ≤ n ∧ n < 194 ∨ 245 ≤ n →
    first (UInt8.ofNat n) = ([none], none) := by
  decide +kernel

theorem toNat_continued (n : Nat) : (continued n).toNat = n % 64 + 128 :=
  UInt8.toNat_ofNat_of_lt' (by change _ < 256; omega)

/-- A byte in the range of the next one adds its six bits. -/
theorem next_continued {lowest highest : UInt8} {n : Nat} (hlowest : lowest ≤ continued n)
    (hhighest : continued n ≤ highest) (missing : Nat) :
    next (some ⟨missing, lowest, highest, n / 64⟩) (continued n) =
      if missing ≤ 1 then ([some (Char.ofNat n)], none)
      else ([], some ⟨missing - 1, 0x80, 0xbf, n⟩) := by
  have hbits : 64 * (n / 64) + (n % 64 + 128) % 64 = n := by omega
  simp only [next, hlowest, hhighest, decide_true, Bool.and_self, if_true, toNat_continued, hbits]

theorem continued_bounds (n : Nat) : 0x80 ≤ continued n ∧ continued n ≤ 0xbf := by
  rw [UInt8.le_iff_toNat_le, UInt8.le_iff_toNat_le, toNat_continued]
  change 128 ≤ _ ∧ _ ≤ 191
  omega

/-! ## Characters -/

theorem decode_last (n : Nat) (rest : Bytes) :
    decode (some ⟨1, 0x80, 0xbf, n / 64⟩) (continued n :: rest) =
      some (Char.ofNat n) :: decode none rest := by
  rw [decode, next_continued (continued_bounds n).1 (continued_bounds n).2]
  rfl

theorem decode_more {lowest highest : UInt8} {n : Nat} (hlowest : lowest ≤ continued n)
    (hhighest : continued n ≤ highest) (missing : Nat) (rest : Bytes) :
    decode (some ⟨missing + 2, lowest, highest, n / 64⟩) (continued n :: rest) =
      decode (some ⟨missing + 1, 0x80, 0xbf, n⟩) rest := by
  rw [decode, next_continued hlowest hhighest, if_neg (by omega)]
  rfl

/-- The second of three bytes is in its range exactly if the number is one of a character. -/
theorem three_bounds_iff {n : Nat} (h : n / 64 / 64 < 16) :
    ((if n / 64 / 64 = 0 then 0xa0 else 0x80) ≤ continued (n / 64) ∧
      continued (n / 64) ≤ if n / 64 / 64 = 13 then 0x9f else 0xbf) ↔
        0x800 ≤ n ∧ (n < 0xd800 ∨ 0xdfff < n) := by
  rw [UInt8.le_iff_toNat_le, UInt8.le_iff_toNat_le, toNat_continued, apply_ite UInt8.toNat,
    apply_ite UInt8.toNat]
  change ((if _ then 160 else 128) ≤ _ ∧ _ ≤ if _ then 159 else 191) ↔ _
  split <;> split <;> omega

theorem four_bounds_iff {n : Nat} (h : n / 64 / 64 / 64 < 5) :
    ((if n / 64 / 64 / 64 = 0 then 0x90 else 0x80) ≤ continued (n / 64 / 64) ∧
      continued (n / 64 / 64) ≤ if n / 64 / 64 / 64 = 4 then 0x8f else 0xbf) ↔
        0x10000 ≤ n ∧ n < 0x110000 := by
  rw [UInt8.le_iff_toNat_le, UInt8.le_iff_toNat_le, toNat_continued, apply_ite UInt8.toNat,
    apply_ite UInt8.toNat]
  change ((if _ then 144 else 128) ≤ _ ∧ _ ≤ if _ then 143 else 191) ↔ _
  split <;> split <;> omega

theorem decode_first {b : UInt8} {p : Begun} (h : first b = ([], some p)) (rest : Bytes) :
    decode none (b :: rest) = decode (some p) rest := by
  rw [decode, next, h]
  rfl

/-- The bytes of a character are read as the character, whatever stands behind them. -/
theorem Writes.decode_append {n : Nat} {bs : Bytes} (h : Writes n bs) (rest : Bytes) :
    decode none (bs ++ rest) = some (Char.ofNat n) :: decode none rest := by
  cases h with
  | one high =>
      rw [List.singleton_append, decode, next, first_one n high]
      rfl
  | two low high =>
      have hfirst := first_two (n / 64) (by omega) (by omega)
      exact (decode_first hfirst _).trans (decode_last n rest)
  | three low high whole =>
      have hbyte : n / 64 / 64 < 16 := by omega
      obtain ⟨hlowest, hhighest⟩ := (three_bounds_iff hbyte).2 ⟨low, whole⟩
      calc
        _ = decode (some ⟨2, _, _, n / 64 / 64⟩) _ := decode_first (first_three _ hbyte) _
        _ = decode (some ⟨1, 0x80, 0xbf, n / 64⟩) _ := decode_more hlowest hhighest 0 _
        _ = some (Char.ofNat n) :: decode none rest := decode_last n rest
  | four low high =>
      have hbyte : n / 64 / 64 / 64 < 5 := by omega
      obtain ⟨hlowest, hhighest⟩ := (four_bounds_iff hbyte).2 ⟨low, high⟩
      obtain ⟨hlowest', hhighest'⟩ := continued_bounds (n / 64)
      calc
        _ = decode (some ⟨3, _, _, n / 64 / 64 / 64⟩) _ := decode_first (first_four _ hbyte) _
        _ = decode (some ⟨2, 0x80, 0xbf, n / 64 / 64⟩) _ := decode_more hlowest hhighest 1 _
        _ = decode (some ⟨1, 0x80, 0xbf, n / 64⟩) _ := decode_more hlowest' hhighest' 0 _
        _ = some (Char.ofNat n) :: decode none rest := decode_last n rest

/-- A character that has begun is continued, if nothing is malformed. -/
theorem exists_continued {missing m : Nat} {lowest highest : UInt8} (hlow : 0x80 ≤ lowest)
    (hhigh : highest ≤ 0xbf) {bs : Bytes}
    (h : none ∉ decode (some ⟨missing, lowest, highest, m⟩) bs) :
    ∃ n rest, n / 64 = m ∧ (lowest ≤ continued n ∧ continued n ≤ highest) ∧
      bs = continued n :: rest := by
  cases bs with
  | nil => exact absurd (List.mem_singleton_self _) h
  | cons b rest =>
      have hrange : lowest ≤ b ∧ b ≤ highest := by
        by_contra hout
        apply h
        have hnext : (lowest ≤ b && b ≤ highest) = false := by simpa using hout
        rw [decode, next, hnext]
        exact List.mem_cons_self
      have hlow' := UInt8.le_iff_toNat_le.1 (UInt8.le_trans hlow hrange.1)
      have hhigh' := UInt8.le_iff_toNat_le.1 (UInt8.le_trans hrange.2 hhigh)
      change 128 ≤ b.toNat at hlow'
      change b.toNat ≤ 191 at hhigh'
      have hb : continued (64 * m + (b.toNat - 128)) = b := by
        rw [← UInt8.toNat_inj, toNat_continued]
        omega
      exact ⟨64 * m + (b.toNat - 128), rest, by omega, by rwa [hb], by rw [hb]⟩

theorem exists_last {m : Nat} {bs : Bytes} (h : none ∉ decode (some ⟨1, 0x80, 0xbf, m⟩) bs) :
    ∃ n rest, n / 64 = m ∧ bs = continued n :: rest := by
  obtain ⟨n, rest, hn, -, hbs⟩ := exists_continued (UInt8.le_refl _) (UInt8.le_refl _) h
  exact ⟨n, rest, hn, hbs⟩

/-- Where nothing is malformed a character stands in front. -/
theorem exists_writes {b : UInt8} {bs : Bytes} (h : none ∉ decode none (b :: bs)) :
    ∃ n front rest, Writes n front ∧ b :: bs = front ++ rest := by
  obtain ⟨n, hn, rfl⟩ : ∃ n < 256, b = UInt8.ofNat n := ⟨b.toNat, b.toNat_lt, by simp⟩
  obtain hone | htwo | hthree | hfour | hstray : n < 128 ∨ (194 ≤ n ∧ n < 224) ∨
      (224 ≤ n ∧ n < 240) ∨ (240 ≤ n ∧ n < 245) ∨ (128 ≤ n ∧ n < 194 ∨ 245 ≤ n) := by
    omega
  · exact ⟨n, _, bs, .one hone, rfl⟩
  · obtain ⟨m, rfl⟩ : ∃ m, n = m + 192 := ⟨n - 192, by omega⟩
    rw [decode_first (first_two m (by omega) (by omega))] at h
    obtain ⟨n, rest, rfl, rfl⟩ := exists_last h
    exact ⟨n, _, rest, .two (by omega) (by omega), rfl⟩
  · obtain ⟨m, rfl⟩ : ∃ m, n = m + 224 := ⟨n - 224, by omega⟩
    have hm : m < 16 := by omega
    rw [decode_first (first_three m hm)] at h
    obtain ⟨k, rest, rfl, hk, rfl⟩ :=
      exists_continued (by split <;> decide) (by split <;> decide) h
    rw [decode_more hk.1 hk.2 0] at h
    obtain ⟨n, rest, rfl, rfl⟩ := exists_last h
    obtain ⟨low, whole⟩ := (three_bounds_iff hm).1 hk
    exact ⟨n, _, rest, .three low (by omega) whole, rfl⟩
  · obtain ⟨m, rfl⟩ : ∃ m, n = m + 240 := ⟨n - 240, by omega⟩
    have hm : m < 5 := by omega
    rw [decode_first (first_four m hm)] at h
    obtain ⟨k, rest, rfl, hk, rfl⟩ :=
      exists_continued (by split <;> decide) (by split <;> decide) h
    rw [decode_more hk.1 hk.2 1] at h
    obtain ⟨l, rest, rfl, hl, rfl⟩ := exists_continued (UInt8.le_refl _) (UInt8.le_refl _) h
    rw [decode_more hl.1 hl.2 0] at h
    obtain ⟨n, rest, rfl, rfl⟩ := exists_last h
    obtain ⟨low, high⟩ := (four_bounds_iff hm).1 hk
    exact ⟨n, _, rest, .four low high, rfl⟩
  · rw [decode, next, first_stray n hn hstray] at h
    exact absurd List.mem_cons_self h

end Utf8

/-! ## Texts -/

theorem utf8Bytes_ofList (cs : List Char) :
    utf8Bytes (String.ofList cs) = cs.flatMap String.utf8EncodeChar := by
  simp [utf8Bytes, String.toUTF8, List.utf8Encode]

theorem utf8Bytes_inj {s t : String} : utf8Bytes s = utf8Bytes t ↔ s = t := by
  rw [utf8Bytes, utf8Bytes, Array.toList_inj, ← ByteArray.ext_iff]
  exact String.toByteArray_inj

namespace Utf8

/-- The bytes of a text are read as its characters, none of them malformed. -/
theorem decode_utf8Bytes (s : String) : decode none (utf8Bytes s) = s.toList.map some := by
  obtain ⟨cs, rfl⟩ : ∃ cs, s = String.ofList cs := ⟨s.toList, String.ofList_toList.symm⟩
  rw [utf8Bytes_ofList, String.toList_ofList]
  induction cs with
  | nil => rfl
  | cons c cs ih =>
      rw [List.flatMap_cons, (writes_encodeChar c).decode_append, ih, Char.ofNat_toNat,
        List.map_cons]

theorem exists_utf8Bytes : ∀ {bs : Bytes}, none ∉ decode none bs → ∃ s, utf8Bytes s = bs
  | [], _ => ⟨"", rfl⟩
  | b :: bs, h => by
      obtain ⟨n, front, rest, hfront, hbs⟩ := exists_writes h
      have hshorter : rest.length < bs.length + 1 := by
        have hlength := congrArg List.length hbs
        have hpos := List.length_pos_iff.2 hfront.ne_nil
        rw [List.length_cons, List.length_append] at hlength
        omega
      rw [hbs, hfront.decode_append] at h
      obtain ⟨s, hs⟩ := exists_utf8Bytes fun hnone => h (List.mem_cons_of_mem _ hnone)
      refine ⟨String.ofList (Char.ofNat n :: s.toList), ?_⟩
      rw [utf8Bytes_ofList, List.flatMap_cons, ← hfront.eq_encodeChar, ← utf8Bytes_ofList,
        String.ofList_toList, hs, hbs]
termination_by bs => bs.length

/-- Bytes are nowhere malformed exactly if they are those of a text. -/
theorem none_notMem_decode_iff {bs : Bytes} :
    none ∉ decode none bs ↔ ∃ s, utf8Bytes s = bs := by
  refine ⟨exists_utf8Bytes, ?_⟩
  rintro ⟨s, rfl⟩
  rw [decode_utf8Bytes]
  simp

end Utf8

end CashWallet
