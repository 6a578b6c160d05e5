import CashWallet.Proofs.Results
import CashWallet.Script.Basic

/-!
# Pushes are read back

The shortest push of some data is one chunk, which pushes the data. A script that is made of pushes
is therefore read back as what was pushed, in order.
-/

namespace CashWallet

namespace Chunk

variable {data rest header : Bytes}

theorem read_counted {op : UInt8} {width : Nat} (hop : lengthForm? op = some (.counted width))
    (hlength : data.length < Nat.pow 256 width) :
    read op (Endian.toLittle width data.length ++ (data ++ rest)) = .ok (⟨op, some data⟩, rest) := by
  have hdigits : (LengthForm.counted width).read?
      (Endian.toLittle width data.length ++ (data ++ rest)) = some (data.length, width) := by
    have htake : (Endian.toLittle width data.length ++ (data ++ rest)).take width =
        Endian.toLittle width data.length :=
      List.take_left' (Endian.length_toLittle width data.length)
    simp only [LengthForm.read?, htake, Endian.length_toLittle, Nat.lt_irrefl, if_false,
      Endian.ofLittle_toLittle, Nat.mod_eq_of_lt hlength]
  have hdrop : (Endian.toLittle width data.length ++ (data ++ rest)).drop width = data ++ rest :=
    List.drop_left' (Endian.length_toLittle width data.length)
  simp only [read, hop, hdigits, hdrop, List.take_left, List.drop_left, Nat.lt_irrefl, if_false]

theorem read_direct {op : UInt8} (hop : lengthForm? op = some (.direct data.length)) :
    read op (data ++ rest) = .ok (⟨op, some data⟩, rest) := by
  simp only [read, hop, LengthForm.read?, List.drop_zero, List.take_left, List.drop_left,
    Nat.lt_irrefl, if_false]

theorem isPushOnly_direct {n : Nat} (h : n ≤ 0x4b) :
    Opcode.isPushOnly (UInt8.ofNat n) = true := by
  have hall : ∀ m ≤ 0x4b, Opcode.isPushOnly (UInt8.ofNat m) = true := by decide
  exact hall n h

theorem lengthForm?_direct {n : Nat} (h0 : 0 < n) (h : n ≤ 0x4b) :
    lengthForm? (UInt8.ofNat n) = some (.direct n) := by
  have hn : (UInt8.ofNat n).toNat = n := UInt8.toNat_ofNat_of_lt' (Nat.lt_of_le_of_lt h (by decide))
  have hlow : (1 : UInt8) ≤ UInt8.ofNat n := UInt8.le_iff_toNat_le.2 (by rw [hn]; exact h0)
  have hhigh : UInt8.ofNat n ≤ Opcode.maxDirectPush := UInt8.le_iff_toNat_le.2 (by rw [hn]; exact h)
  rw [lengthForm?, if_pos ⟨hlow, hhigh⟩, hn]

/-- The first chunk behind the header of a push takes exactly the data. -/
theorem read_push (h : pushHeader data.length = .ok header) :
    ∃ op digits chunk, header = op :: digits ∧
      read op (digits ++ (data ++ rest)) = .ok (chunk, rest) ∧ Script.pushedBy chunk = .ok data := by
  unfold pushHeader at h
  split at h
  · next hlength =>
      cases h
      by_cases hzero : data = []
      · subst hzero
        exact ⟨0, [], ⟨0, none⟩, rfl, rfl, rfl⟩
      · have hpos : 0 < data.length := List.length_pos_iff.2 hzero
        refine ⟨UInt8.ofNat data.length, [], _, rfl, read_direct (lengthForm?_direct hpos hlength), ?_⟩
        rw [Script.pushedBy, if_pos (isPushOnly_direct hlength)]
        rfl
  split at h
  · next hlength =>
      cases h
      exact ⟨_, Endian.toLittle 1 data.length, _, rfl,
        read_counted rfl (Nat.lt_of_le_of_lt hlength (by decide)), rfl⟩
  split at h
  · next hlength =>
      cases h
      exact ⟨_, _, _, rfl, read_counted rfl (Nat.lt_of_le_of_lt hlength (by decide)), rfl⟩
  split at h
  · next hlength =>
      cases h
      exact ⟨_, _, _, rfl, read_counted rfl (Nat.lt_of_le_of_lt hlength (by decide)), rfl⟩
  · cases h

theorem decodeAll_cons {op : UInt8} {bs : Bytes} {chunk : Chunk}
    (h : read op bs = .ok (chunk, rest)) :
    decodeAll (op :: bs) = (decodeAll rest).map (chunk :: ·) := by
  rw [decodeAll]
  split
  · next heq => rw [h] at heq; cases heq
  · next heq =>
      rw [h] at heq
      cases heq
      cases decodeAll rest <;> rfl

theorem length_pushHeader {n : Nat} (h : pushHeader n = .ok header) :
    0 < header.length ∧ header.length ≤ 5 ∧ n ≤ 0xffffffff := by
  unfold pushHeader at h
  split at h
  · cases h
    exact ⟨by simp, by simp, by omega⟩
  split at h
  · cases h
    exact ⟨by simp, by simp, by omega⟩
  split at h
  · cases h
    exact ⟨by simp, by simp, by omega⟩
  split at h
  · cases h
    exact ⟨by simp, by simp, by omega⟩
  · cases h

theorem exists_pushHeader {n : Nat} (h : n ≤ 0xffffffff) : ∃ header, pushHeader n = .ok header := by
  unfold pushHeader
  rw [if_pos h]
  split
  · exact ⟨_, rfl⟩
  split
  · exact ⟨_, rfl⟩
  split
  · exact ⟨_, rfl⟩
  · exact ⟨_, rfl⟩

end Chunk

namespace Script

variable {data : Bytes}

theorem appendPush_eq_ok_iff {s s' : Script} : s.appendPush data = .ok s' ↔
    ∃ header, Chunk.pushHeader data.length = .ok header ∧ s' = ⟨s.bytes ++ (header ++ data)⟩ := by
  rw [appendPush, Results.bind_eq_ok_iff]
  constructor
  · rintro ⟨header, hheader, h⟩
    exact ⟨header, hheader, by rw [← Except.ok.inj h, List.append_assoc]⟩
  · rintro ⟨header, hheader, rfl⟩
    exact ⟨header, hheader, by rw [← List.append_assoc]; rfl⟩

theorem exists_appendPush (s : Script) (h : data.length ≤ 0xffffffff) :
    ∃ s', s.appendPush data = .ok s' := by
  obtain ⟨header, hheader⟩ := Chunk.exists_pushHeader h
  exact ⟨_, appendPush_eq_ok_iff.2 ⟨header, hheader, rfl⟩⟩

/-- A push adds at least one byte, and no more than a header and as much data as four bytes count. -/
theorem length_appendPush {s s' : Script} (h : s.appendPush data = .ok s') :
    s.bytes.length < s'.bytes.length ∧ s'.bytes.length ≤ s.bytes.length + 5 + 0xffffffff := by
  obtain ⟨header, hheader, rfl⟩ := appendPush_eq_ok_iff.1 h
  obtain ⟨hpos, hheader, hdata⟩ := Chunk.length_pushHeader hheader
  simp only [List.length_append]
  omega

/-- A push at the front pushes its data before all else. -/
theorem pushes_push {header rest : Bytes} (h : Chunk.pushHeader data.length = .ok header) :
    (Script.mk (header ++ (data ++ rest))).pushes = (Script.mk rest).pushes.map (data :: ·) := by
  obtain ⟨op, digits, chunk, rfl, hread, hchunk⟩ := @Chunk.read_push data rest header h
  simp only [pushes, chunks, List.cons_append, Chunk.decodeAll_cons hread]
  cases Chunk.decodeAll rest with
  | error e => rfl
  | ok cs =>
      change List.mapM pushedBy (chunk :: cs) = (List.mapM pushedBy cs).map (data :: ·)
      rw [List.mapM_cons, hchunk]
      change (List.mapM pushedBy cs >>= fun ds => pure (data :: ds)) = _
      cases List.mapM pushedBy cs <;> rfl

theorem pushes_nil : (Script.mk []).pushes = .ok [] := by
  simp only [pushes, chunks, Chunk.decodeAll]
  rfl

end Script

end CashWallet
