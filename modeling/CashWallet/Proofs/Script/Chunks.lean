import CashWallet.Proofs.Script.Pushes

/-!
# Chunks and their bytes

A chunk is written as the bytes it was read from, so the chunks of a script are all there is in it.
Data stands only behind opcodes that do nothing but push. A script therefore pushes data that is not
empty exactly if it is a row of data pushes.
-/

namespace CashWallet

namespace Chunk

variable {op : UInt8} {bs rest : Bytes} {chunk : Chunk}

theorem le_of_lengthForm? {form : LengthForm} (h : lengthForm? op = some form) :
    op ≤ Opcode.pushData4 := by
  unfold lengthForm? at h
  split at h
  · next hdirect => exact UInt8.le_trans hdirect.2 (by decide)
  split at h
  · next hop =>
      rw [hop]
      decide
  split at h
  · next hop =>
      rw [hop]
      decide
  split at h
  · next hop =>
      rw [hop]
      decide
  · cases h

theorem isPushOnly_of_lengthForm? {form : LengthForm} (h : lengthForm? op = some form) :
    Opcode.isPushOnly op = true := by
  have hall : ∀ n ≤ Opcode.pushData4.toNat, Opcode.isPushOnly (UInt8.ofNat n) = true := by decide
  have hop := hall op.toNat (UInt8.le_iff_toNat_le.1 (le_of_lengthForm? h))
  rwa [UInt8.ofNat_toNat] at hop

theorem length_take_of_not_lt {n : Nat} (h : ¬ (bs.take n).length < n) : (bs.take n).length = n :=
  Nat.le_antisymm (List.length_take_le n bs) (Nat.not_lt.1 h)

/-- The bytes that tell the length, as far as the opcode does not tell it itself. -/
def LengthForm.digits : LengthForm → Nat → Bytes
  | .direct _, _ => []
  | .counted width, length => Endian.toLittle width length

theorem LengthForm.read?_eq_some {form : LengthForm} {length width : Nat}
    (h : form.read? bs = some (length, width)) : form.digits length ++ bs.drop width = bs := by
  cases form with
  | direct n =>
      cases h
      rfl
  | counted w =>
      simp only [read?] at h
      split at h
      · cases h
      · next hlength =>
          cases h
          rw [digits, Endian.toLittle_ofLittle (length_take_of_not_lt hlength),
            List.take_append_drop]

theorem encode_of_lengthForm? {form : LengthForm} {data : Bytes} (h : lengthForm? op = some form) :
    encode ⟨op, some data⟩ = op :: form.digits data.length ++ data := by
  unfold encode
  rw [h]
  cases form <;> rfl

/-- A chunk that is read is written as the bytes it was read from, and with data it is a push. -/
theorem read_eq_ok (h : read op bs = .ok (chunk, rest)) :
    chunk.encode ++ rest = op :: bs ∧
      ∀ data, chunk.data = some data → Opcode.isPushOnly chunk.opcode = true := by
  unfold read at h
  split at h
  · next hform =>
      cases h
      exact ⟨by simp [encode], nofun⟩
  · next form hform =>
      split at h
      · cases h
      · next length width hread =>
          dsimp only at h
          split at h
          · cases h
          · next hlength =>
              cases h
              have htake := length_take_of_not_lt hlength
              refine ⟨?_, fun _ _ => isPushOnly_of_lengthForm? hform⟩
              rw [encode_of_lengthForm? hform, htake, List.append_assoc, List.take_append_drop,
                List.cons_append, LengthForm.read?_eq_some hread]

theorem decodeAll_nil : decodeAll [] = .ok [] := by
  rw [decodeAll]

theorem decodeAll_eq_nil (h : decodeAll bs = .ok []) : bs = [] := by
  unfold decodeAll at h
  split at h
  · rfl
  · split at h
    · cases h
    · split at h <;> cases h

/-- The first chunk is read off the front, and the others are those of the rest. -/
theorem decodeAll_eq_cons {chunks : List Chunk} (h : decodeAll bs = .ok (chunk :: chunks)) :
    ∃ op behind rest, bs = op :: behind ∧ read op behind = .ok (chunk, rest) ∧
      decodeAll rest = .ok chunks := by
  unfold decodeAll at h
  split at h
  · cases h
  · next op behind =>
      split at h
      · cases h
      · next found rest hread =>
          split at h
          · cases h
          · next hrest =>
              cases h
              exact ⟨op, behind, rest, rfl, hread, hrest⟩

theorem decodeAll_eq_ok {chunks : List Chunk} (h : decodeAll bs = .ok chunks) :
    chunks.flatMap encode = bs ∧
      ∀ chunk ∈ chunks, ∀ data, chunk.data = some data → Opcode.isPushOnly chunk.opcode = true := by
  induction chunks generalizing bs with
  | nil =>
      rw [decodeAll_eq_nil h]
      exact ⟨rfl, nofun⟩
  | cons chunk chunks ih =>
      obtain ⟨op, behind, rest, rfl, hread, hrest⟩ := decodeAll_eq_cons h
      obtain ⟨hbytes, hpush⟩ := read_eq_ok hread
      obtain ⟨hbytes', hpush'⟩ := ih hrest
      refine ⟨?_, List.forall_mem_cons.2 ⟨hpush, hpush'⟩⟩
      rw [List.flatMap_cons, hbytes', hbytes]

end Chunk

namespace Script

variable {s : Script} {items : List Bytes}

/-- The script is a row of data pushes, of exactly these data. -/
def PushesData (s : Script) (items : List Bytes) : Prop :=
  ∃ chunks, s.chunks = .ok chunks ∧ chunks.flatMap Chunk.encode = s.bytes ∧
    List.Forall₂ (fun chunk item => chunk.data = some item) chunks items

theorem pushedBy_eq_ok {chunk : Chunk} {item : Bytes} (h : pushedBy chunk = .ok item)
    (hne : item ≠ []) : chunk.data = some item := by
  unfold pushedBy at h
  split at h
  · cases hdata : chunk.data with
    | none =>
        rw [hdata] at h
        exact absurd (Except.ok.inj h).symm hne
    | some data =>
        rw [hdata] at h
        rw [← Except.ok.inj h, Option.getD_some]
  · cases h

/-- Data that is not empty is read from a row of data pushes, and from nothing else. -/
theorem pushes_eq_ok_iff (hne : ∀ item ∈ items, item ≠ []) :
    s.pushes = .ok items ↔ s.PushesData items := by
  rw [pushes, Results.bind_eq_ok_iff]
  constructor
  · rintro ⟨chunks, hchunks, h⟩
    have hall := (List.forall₂_and_left _ _).2 ⟨hne, (Results.mapM_eq_ok_iff.1 h).flip⟩
    refine ⟨chunks, hchunks, (Chunk.decodeAll_eq_ok hchunks).1, List.Forall₂.flip (hall.imp ?_)⟩
    rintro item chunk ⟨hitem, hpushed⟩
    exact pushedBy_eq_ok hpushed hitem
  · rintro ⟨chunks, hchunks, -, h⟩
    refine ⟨chunks, hchunks, Results.mapM_eq_ok_iff.2 ?_⟩
    have hall := (List.forall₂_and_left _ _).2 ⟨(Chunk.decodeAll_eq_ok hchunks).2, h⟩
    refine hall.imp ?_
    rintro chunk item ⟨hpush, hdata⟩
    rw [pushedBy, if_pos (hpush item hdata), hdata, Option.getD_some]

theorem pushesData_unique {items' : List Bytes} (h : s.PushesData items)
    (h' : s.PushesData items') : items = items' := by
  obtain ⟨chunks, hchunks, -, hitems⟩ := h
  obtain ⟨chunks', hchunks', -, hitems'⟩ := h'
  rw [hchunks] at hchunks'
  cases hchunks'
  refine List.right_unique_forall₂' ?_ hitems hitems'
  intro chunk item item' hitem hitem'
  exact Option.some.inj (hitem.symm.trans hitem')

end Script

end CashWallet
