import CashWallet.Proofs.Bytes.Layout
import CashWallet.Proofs.Script.Chunks
import CashWallet.Script.Scan

/-!
# The grammar of scripts

A script is a row of elements: an opcode by itself, or a push with its length in one of four forms
and as many bytes as it says. Exactly the rows of elements are cut into chunks, each in one way
only, and each chunk is written as the element that it was cut from. A scan that takes every byte by
its place finds the same chunks and never looks beyond the script.
-/

namespace CashWallet

open Results

namespace Chunk

variable {op : UInt8} {bs rest part part' script : Bytes} {chunk chunk' : Chunk}
  {chunks : List Chunk} {parts : List Bytes}

/-- The bytes of a chunk: an opcode that is no push of data; a length of up to 75 and as many bytes;
an opcode that tells the width of a little-endian length, this length, and as many bytes. -/
inductive Element : Chunk → Bytes → Prop
  | opcode (op : UInt8) (bare : ¬ (0x01 ≤ op ∧ op ≤ 0x4e)) : Element ⟨op, none⟩ [op]
  | direct (op : UInt8) (data : Bytes) (short : 1 ≤ data.length ∧ data.length ≤ 75)
      (told : op.toNat = data.length) : Element ⟨op, some data⟩ (op :: data)
  | counted (op : UInt8) (width : Nat) (form : (op, width) ∈ [(0x4c, 1), (0x4d, 2), (0x4e, 4)])
      (digits data : Bytes) (wide : digits.length = width)
      (told : Endian.ofLittle digits = data.length) :
      Element ⟨op, some data⟩ (op :: (digits ++ data))

/-- The script is a row of parts, each of them the element of a chunk. -/
structure Decomposes (script : Bytes) (parts : List Bytes) (chunks : List Chunk) : Prop where
  elements : List.Forall₂ Element chunks parts
  joined : parts.flatten = script

/-! ## Opcodes and length forms -/

theorem lengthForm?_eq_none_iff : lengthForm? op = none ↔ ¬ (0x01 ≤ op ∧ op ≤ 0x4e) := by
  have hall : ∀ n < 256, lengthForm? (UInt8.ofNat n) = none ↔
      ¬ (0x01 ≤ UInt8.ofNat n ∧ UInt8.ofNat n ≤ 0x4e) := by
    decide +kernel
  have h := hall op.toNat op.toNat_lt
  rwa [UInt8.ofNat_toNat] at h

theorem lengthForm?_eq_direct {length : Nat} (h : lengthForm? op = some (.direct length)) :
    (1 ≤ length ∧ length ≤ 75) ∧ op.toNat = length := by
  unfold lengthForm? at h
  split at h
  · next hdirect =>
      cases h
      exact ⟨⟨UInt8.le_iff_toNat_le.1 hdirect.1, UInt8.le_iff_toNat_le.1 hdirect.2⟩, rfl⟩
  split at h
  · cases h
  split at h
  · cases h
  split at h <;> cases h

theorem lengthForm?_eq_counted {width : Nat} (h : lengthForm? op = some (.counted width)) :
    (op, width) ∈ [((0x4c : UInt8), 1), (0x4d, 2), (0x4e, 4)] := by
  unfold lengthForm? at h
  split at h
  · cases h
  split at h
  · next hop =>
      cases h
      rw [hop]
      decide
  split at h
  · next hop =>
      cases h
      rw [hop]
      decide
  split at h
  · next hop =>
      cases h
      rw [hop]
      decide
  · cases h

theorem lengthForm?_counted {width : Nat}
    (h : (op, width) ∈ [((0x4c : UInt8), 1), (0x4d, 2), (0x4e, 4)]) :
    lengthForm? op = some (.counted width) := by
  simp only [List.mem_cons, Prod.mk.injEq, List.not_mem_nil, or_false] at h
  rcases h with ⟨rfl, rfl⟩ | ⟨rfl, rfl⟩ | ⟨rfl, rfl⟩ <;> rfl

/-! ## One element -/

/-- An element stands for one chunk, is what is written for it, and is read off any script. -/
theorem Element.read (h : Element chunk part) :
    ∃ op bs, part = op :: bs ∧ ∀ rest, Chunk.read op (bs ++ rest) = .ok (chunk, rest) := by
  cases h with
  | opcode op bare =>
      refine ⟨op, [], rfl, ?_⟩
      intro rest
      rw [Chunk.read, lengthForm?_eq_none_iff.2 bare]
      rfl
  | direct op data short told =>
      have hop : UInt8.ofNat data.length = op := by rw [← told, UInt8.ofNat_toNat]
      have hform : lengthForm? op = some (.direct data.length) := by
        rw [← hop]
        exact lengthForm?_direct short.1 short.2
      exact ⟨op, data, rfl, fun rest => read_direct hform⟩
  | counted op width form digits data wide told =>
      have hlength : data.length < Nat.pow 256 width := by
        rw [← told, ← wide]
        exact Endian.ofLittle_lt digits
      refine ⟨op, digits ++ data, rfl, ?_⟩
      intro rest
      rw [← Endian.toLittle_ofLittle wide, told, List.append_assoc]
      exact read_counted (lengthForm?_counted form) hlength

theorem Element.eq_encode (h : Element chunk part) : part = chunk.encode := by
  obtain ⟨op, bs, rfl, hread⟩ := h.read
  have hbytes := (read_eq_ok (hread [])).1
  rwa [List.append_nil, List.append_nil, eq_comm] at hbytes

/-- A push whose opcode tells the length has data of this length. -/
theorem Element.length_of_direct {data : Bytes} {length : Nat} (h : Element ⟨op, some data⟩ part)
    (hop : lengthForm? op = some (.direct length)) : data.length = length := by
  cases h with
  | direct _ _ short told => exact told.symm.trans (lengthForm?_eq_direct hop).2
  | counted _ width form digits _ wide told =>
      rw [lengthForm?_counted form] at hop
      cases hop

/-- The length that a form tells, whatever bytes it is told by. -/
def LengthForm.Tells : LengthForm → Nat → Prop
  | .direct told, length => length = told
  | .counted width, length => length < Nat.pow 256 width

theorem LengthForm.tells_of_read? {form : LengthForm} {length width : Nat}
    (h : form.read? bs = some (length, width)) : form.Tells length := by
  cases form with
  | direct told =>
      cases h
      rfl
  | counted w =>
      simp only [read?] at h
      split at h
      · cases h
      · cases h
        have hlt := Endian.ofLittle_lt (bs.take width)
        exact Nat.lt_of_lt_of_le hlt (Nat.pow_le_pow_right (by decide) (List.length_take_le width bs))

theorem element_of_form {form : LengthForm} {data : Bytes} (hform : lengthForm? op = some form)
    (h : form.Tells data.length) :
    Element ⟨op, some data⟩ (op :: form.digits data.length ++ data) := by
  cases form with
  | direct told =>
      obtain ⟨hshort, htold⟩ := lengthForm?_eq_direct hform
      cases h
      exact .direct op data hshort htold
  | counted width =>
      refine .counted op width (lengthForm?_eq_counted hform) _ data (Endian.length_toLittle _ _) ?_
      rw [LengthForm.digits, Endian.ofLittle_toLittle, Nat.mod_eq_of_lt h]

/-- What is read as a chunk is the element of this chunk. -/
theorem element_of_read (h : Chunk.read op bs = .ok (chunk, rest)) :
    Element chunk chunk.encode := by
  unfold Chunk.read at h
  split at h
  · next hform =>
      cases h
      exact .opcode op (lengthForm?_eq_none_iff.1 hform)
  · next form hform =>
      split at h
      · cases h
      · next length width hread =>
          dsimp only at h
          split at h
          · cases h
          · next hlength =>
              cases h
              have htake := length_take_of_not_lt hlength
              rw [encode_of_lengthForm? hform]
              apply element_of_form hform
              rw [htake]
              exact LengthForm.tells_of_read? hread

/-! ## Rows of elements -/

/-- A row of elements is cut into their chunks. -/
theorem decodeAll_of_elements (h : List.Forall₂ Element chunks parts) :
    decodeAll parts.flatten = .ok chunks := by
  induction h with
  | nil => exact decodeAll_nil
  | cons hpart _ ih =>
      obtain ⟨op, bs, rfl, hread⟩ := hpart.read
      rw [List.flatten_cons, List.cons_append, decodeAll_cons (hread _), ih]
      rfl

theorem elements_of_decodeAll (h : decodeAll script = .ok chunks) :
    List.Forall₂ Element chunks (chunks.map encode) := by
  induction chunks generalizing script with
  | nil => exact .nil
  | cons chunk chunks ih =>
      obtain ⟨op, bs, rest, -, hread, hrest⟩ := decodeAll_eq_cons h
      exact .cons (element_of_read hread) (ih hrest)

theorem Decomposes.parts_eq (h : Decomposes script parts chunks) : parts = chunks.map encode := by
  rw [← List.forall₂_eq_eq_eq, List.forall₂_map_right_iff]
  exact (h.elements.imp fun _ _ helement => helement.eq_encode).flip

/-- A script is cut into some chunks exactly if it is the row of their elements. -/
theorem decodeAll_eq_ok_iff :
    decodeAll script = .ok chunks ↔ ∃ parts, Decomposes script parts chunks := by
  constructor
  · intro h
    refine ⟨chunks.map encode, elements_of_decodeAll h, ?_⟩
    rw [← List.flatMap_def]
    exact (decodeAll_eq_ok h).1
  · rintro ⟨parts, helements, rfl⟩
    exact decodeAll_of_elements helements

theorem read_failsWith (op : UInt8) (bs : Bytes) :
    FailsWith (· = ScriptError.endOfScript) (Chunk.read op bs) := by
  unfold Chunk.read
  split
  · exact failsWith_ok _
  · split
    · exact failsWith_error rfl
    · dsimp only
      split
      · exact failsWith_error rfl
      · exact failsWith_ok _

/-- A script that is not cut into chunks ends too early. -/
theorem decodeAll_failsWith (script : Bytes) :
    FailsWith (· = ScriptError.endOfScript) (decodeAll script) := by
  fun_induction decodeAll script with
  | case1 => exact failsWith_ok []
  | case2 op bs e hread =>
      apply failsWith_error
      exact read_failsWith op bs e hread
  | case3 op bs chunk rest hread e hrest ih =>
      apply failsWith_error
      exact ih e hrest
  | case4 op bs chunk rest hread chunks hrest ih => exact failsWith_ok _

end Chunk

/-! ## The scan by places -/

namespace Scan

open Chunk (LengthForm lengthForm? encode_of_lengthForm? length_take_of_not_lt)

variable {op : UInt8} {before bs rest : Bytes} {chunk : Chunk}

/-- Of what stands behind a position, as many bytes are sliced out as are asked for, or none. -/
theorem slice?_append (before bs : Bytes) (width : Nat) :
    slice? (before ++ bs) before.length (before.length + width) =
      if (bs.take width).length < width then none else some (bs.take width) := by
  have htaken : ((before ++ bs).take (before.length + width)).drop before.length =
      bs.take width := by
    rw [List.take_length_add_append, List.drop_left]
  have hinside : (before.length ≤ before.length + width ∧
      before.length + width ≤ (before ++ bs).length) ↔ ¬ (bs.take width).length < width := by
    rw [List.length_append, List.length_take]
    omega
  rw [slice?, htaken]
  by_cases h : (bs.take width).length < width
  · rw [if_pos h, if_neg (fun hin => hinside.1 hin h)]
  · rw [if_neg h, if_pos (hinside.2 h)]

theorem lengthAt_append (form : LengthForm) (before bs : Bytes) :
    lengthAt form (before ++ bs) before.length =
      (form.read? bs).elim (.error (.fault .endOfScript)) .ok := by
  cases form with
  | direct length => rfl
  | counted width =>
      rw [lengthAt, slice?_append, LengthForm.read?]
      by_cases h : (bs.take width).length < width
      · simp only [if_pos h, Option.elim_none]
      · simp only [if_neg h, Option.elim_some]

theorem dataAt_append (op : UInt8) (before bs : Bytes) (length : Nat) :
    dataAt op (before ++ bs) before.length length =
      if (bs.take length).length < length then .error (.fault .endOfScript)
      else .ok (⟨op, some (bs.take length)⟩, before.length + length) := by
  have hbeyond : (before ++ bs).length < before.length + length ↔
      (bs.take length).length < length := by
    rw [List.length_append, List.length_take]
    omega
  rw [dataAt, slice?_append]
  by_cases h : (bs.take length).length < length
  · rw [if_pos (hbeyond.2 h), if_pos h]
  · rw [if_neg fun hlt => h (hbeyond.1 hlt), if_neg h, if_neg h]

theorem length_digits {form : LengthForm} {length width : Nat}
    (h : form.read? bs = some (length, width)) : (form.digits length).length = width := by
  cases form with
  | direct n =>
      cases h
      rfl
  | counted w =>
      simp only [LengthForm.read?] at h
      split at h
      · cases h
      · cases h
        exact Endian.length_toLittle _ _

/-- At a position stands the chunk that is read off the bytes from there on. -/
theorem chunkAt_append (op : UInt8) (before bs : Bytes) :
    chunkAt (before ++ op :: bs) before.length =
      ((Chunk.read op bs).map fun found =>
        (found.1, (before ++ found.1.encode).length)).mapError .fault := by
  have hop : (before ++ op :: bs)[before.length]? = some op := by simp
  have hsplit : before ++ op :: bs = before ++ [op] ++ bs := by simp
  have hbehind : before.length + 1 = (before ++ [op]).length := by simp
  rw [chunkAt, hop, Chunk.read]
  dsimp only
  cases hform : lengthForm? op with
  | none =>
      simp only [Except.map, Except.mapError, Chunk.encode, List.length_append,
        List.length_singleton]
  | some form =>
      dsimp only
      rw [hsplit, hbehind, lengthAt_append]
      cases hread : form.read? bs with
      | none => rfl
      | some told =>
          obtain ⟨length, width⟩ := told
          have hdigits : before ++ [op] ++ bs =
              before ++ [op] ++ form.digits length ++ bs.drop width := by
            rw [List.append_assoc _ (form.digits length), LengthForm.read?_eq_some hread]
          have hplace : (before ++ [op]).length + width =
              (before ++ [op] ++ form.digits length).length := by
            rw [← length_digits hread, ← List.length_append]
          dsimp only [Option.elim_some]
          rw [hplace, hdigits, dataAt_append]
          split
          · rfl
          · next hlength =>
              have htake := length_take_of_not_lt hlength
              simp only [Except.map, Except.mapError, encode_of_lengthForm? hform, htake]
              simp [htake]
              omega

theorem chunksFrom_of_error {script : Bytes} {position : Nat} {stop : Stop}
    (hinside : position < script.length) (h : chunkAt script position = .error stop) :
    chunksFrom script position = .error stop := by
  rw [chunksFrom, dif_pos hinside]
  split
  · next hstop =>
      rw [h] at hstop
      exact congrArg Except.error (Except.error.inj hstop).symm
  · next hok =>
      rw [h] at hok
      cases hok

theorem chunksFrom_of_ok {script : Bytes} {position next : Nat}
    (hinside : position < script.length) (h : chunkAt script position = .ok (chunk, next)) :
    chunksFrom script position = (chunksFrom script next).map (chunk :: ·) := by
  rw [chunksFrom, dif_pos hinside]
  split
  · next hstop =>
      rw [h] at hstop
      cases hstop
  · next hok =>
      rw [h] at hok
      cases hok
      cases chunksFrom script next <;> rfl

/-- Behind a chunk the scan goes on with the bytes that were left. -/
theorem chunksFrom_step (before : Bytes) (h : Chunk.read op bs = .ok (chunk, rest)) :
    chunksFrom (before ++ op :: bs) before.length =
      (chunksFrom (before ++ chunk.encode ++ rest) (before ++ chunk.encode).length).map
        (chunk :: ·) := by
  have hstep := chunkAt_append op before bs
  rw [h] at hstep
  rw [chunksFrom_of_ok (by simp) hstep, List.append_assoc, (Chunk.read_eq_ok h).1]

/-- The scan finds the chunks that are read one after the other, and each place that it looks at is
one of the script. -/
theorem chunksFrom_append (before bs : Bytes) :
    chunksFrom (before ++ bs) before.length = (Chunk.decodeAll bs).mapError .fault := by
  fun_induction Chunk.decodeAll bs generalizing before with
  | case1 =>
      rw [chunksFrom, dif_neg (by simp)]
      rfl
  | case2 op bs e hread =>
      have hstep := chunkAt_append op before bs
      rw [hread] at hstep
      exact chunksFrom_of_error (by simp) hstep
  | case3 op bs chunk rest hread e hrest ih =>
      rw [chunksFrom_step before hread, ih, hrest]
      rfl
  | case4 op bs chunk rest hread chunks hrest ih =>
      rw [chunksFrom_step before hread, ih, hrest]
      rfl

theorem chunks_eq_decodeAll (script : Bytes) :
    chunks script = (Chunk.decodeAll script).mapError .fault :=
  chunksFrom_append [] script

end Scan

namespace Chunk

/-- Exactly the rows of elements are cut into chunks. Parts and chunks are determined by the script,
and the chunks in their own forms are the parts. Any other script ends too early. The scan by places
gives the same and looks at no place beyond the script. -/
theorem decodeAll_grammar (script : Bytes) :
    (∀ chunks, decodeAll script = .ok chunks ↔ ∃ parts, Decomposes script parts chunks) ∧
      (∀ parts parts' chunks chunks', Decomposes script parts chunks →
        Decomposes script parts' chunks' → parts = parts' ∧ chunks = chunks') ∧
      (∀ parts chunks, Decomposes script parts chunks →
        parts = chunks.map encode ∧ chunks.flatMap encode = script) ∧
      (decodeAll script = .error .endOfScript ↔ ¬ ∃ parts chunks, Decomposes script parts chunks) ∧
      Scan.chunks script = (decodeAll script).mapError .fault := by
  refine ⟨fun chunks => decodeAll_eq_ok_iff, ?_, ?_, ?_, Scan.chunks_eq_decodeAll script⟩
  · intro parts parts' chunks chunks' h h'
    have hchunks : chunks = chunks' := by
      have hread := decodeAll_eq_ok_iff.2 ⟨parts, h⟩
      rw [decodeAll_eq_ok_iff.2 ⟨parts', h'⟩] at hread
      exact (Except.ok.inj hread).symm
    exact ⟨by rw [h.parts_eq, h'.parts_eq, hchunks], hchunks⟩
  · intro parts chunks h
    exact ⟨h.parts_eq, (decodeAll_eq_ok (decodeAll_eq_ok_iff.2 ⟨parts, h⟩)).1⟩
  · constructor
    · rintro h ⟨parts, chunks, hrow⟩
      rw [decodeAll_eq_ok_iff.2 ⟨parts, hrow⟩] at h
      cases h
    · intro h
      cases hread : decodeAll script with
      | error e => rw [decodeAll_failsWith script e hread]
      | ok chunks =>
          obtain ⟨parts, hrow⟩ := decodeAll_eq_ok_iff.1 hread
          exact absurd ⟨parts, chunks, hrow⟩ h

/-- An opcode and pushes in three forms. -/
theorem decodeAll_grammar_forms :
    Decomposes [0x76, 2, 7, 8, 0x4c, 1, 9, 0x4d, 0, 0]
        [[0x76], [2, 7, 8], [0x4c, 1, 9], [0x4d, 0, 0]]
        [⟨0x76, none⟩, ⟨2, some [7, 8]⟩, ⟨0x4c, some [9]⟩, ⟨0x4d, some []⟩] ∧
      decodeAll [0x76, 2, 7, 8, 0x4c, 1, 9, 0x4d, 0, 0] =
        .ok [⟨0x76, none⟩, ⟨2, some [7, 8]⟩, ⟨0x4c, some [9]⟩, ⟨0x4d, some []⟩] := by
  have helements : List.Forall₂ Element
      [⟨0x76, none⟩, ⟨2, some [7, 8]⟩, ⟨0x4c, some [9]⟩, ⟨0x4d, some []⟩]
      [[0x76], [2, 7, 8], [0x4c, 1, 9], [0x4d, 0, 0]] := by
    apply List.Forall₂.cons (.opcode 0x76 (by decide))
    apply List.Forall₂.cons (.direct 2 [7, 8] (by decide) rfl)
    apply List.Forall₂.cons (.counted 0x4c 1 (by decide) [1] [9] rfl rfl)
    exact .cons (.counted 0x4d 2 (by decide) [0, 0] [] rfl rfl) .nil
  have hrow : Decomposes [0x76, 2, 7, 8, 0x4c, 1, 9, 0x4d, 0, 0]
      [[0x76], [2, 7, 8], [0x4c, 1, 9], [0x4d, 0, 0]]
      [⟨0x76, none⟩, ⟨2, some [7, 8]⟩, ⟨0x4c, some [9]⟩, ⟨0x4d, some []⟩] :=
    ⟨helements, rfl⟩
  exact ⟨hrow, ((decodeAll_grammar _).1 _).2 ⟨_, hrow⟩⟩

end Chunk

end CashWallet
