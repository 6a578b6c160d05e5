import CashWallet.Proofs.Script.Grammar
import CashWallet.Script.Assembly

/-!
# Scripts made of shortest pushes

Pushes that are written one after the other are read back in order. The header of a push is the
shortest one that makes a single push of the data, and the only one of its length. Data that no
header can count is refused before anything is written.
-/

namespace CashWallet

open Results

namespace Chunk

variable {data header part : Bytes} {chunk : Chunk}

/-- The chunk pushes the data. The empty string is also pushed by the opcode zero, which has no data
of its own. -/
inductive IsPush : Chunk → Bytes → Prop
  | data (op : UInt8) (data : Bytes) : IsPush ⟨op, some data⟩ data
  | zero : IsPush ⟨0, none⟩ []

/-- Header and data together are a single push of the data. -/
def Heads (header data : Bytes) : Prop :=
  ∃ chunk, decodeAll (header ++ data) = .ok [chunk] ∧ IsPush chunk data

/-- The one header that makes a push of the data in the fewest bytes. -/
structure IsShortestHeader (header data : Bytes) : Prop where
  heads : Heads header data
  shortest : ∀ header', Heads header' data → header' = header ∨ header.length < header'.length

theorem decodeAll_singleton_iff : decodeAll part = .ok [chunk] ↔ Element chunk part := by
  rw [decodeAll_eq_ok_iff]
  constructor
  · rintro ⟨parts, helements, rfl⟩
    cases helements with
    | cons hpart hnil =>
        cases hnil
        rwa [List.flatten_singleton]
  · intro h
    exact ⟨[part], .cons h .nil, List.flatten_singleton⟩

/-- The headers that make a push of some data, from the shortest form to the longest. -/
inductive IsHeader : Bytes → Nat → Prop
  | zero : IsHeader [0] 0
  | direct (length : Nat) (short : 1 ≤ length ∧ length ≤ 75) : IsHeader [UInt8.ofNat length] length
  | counted (op : UInt8) (width length : Nat)
      (form : (op, width) ∈ [(0x4c, 1), (0x4d, 2), (0x4e, 4)]) (fits : length < Nat.pow 256 width) :
      IsHeader (op :: Endian.toLittle width length) length

theorem heads_iff : Heads header data ↔ IsHeader header data.length := by
  simp only [Heads, decodeAll_singleton_iff]
  constructor
  · rintro ⟨chunk, helement, hpush⟩
    generalize hpart : header ++ data = part at helement
    cases helement with
    | opcode op bare =>
        cases hpush
        rw [List.append_nil] at hpart
        rw [hpart]
        exact .zero
    | direct op data short told =>
        cases hpush
        have hheader : header = [op] := List.append_cancel_right hpart
        rw [hheader, ← op.ofNat_toNat, told]
        exact .direct data.length short
    | counted op width form digits data wide told =>
        cases hpush
        have hheader : header = op :: digits := List.append_cancel_right hpart
        have hfits : data.length < Nat.pow 256 width := by
          rw [← told, ← wide]
          exact Endian.ofLittle_lt digits
        rw [hheader, ← Endian.toLittle_ofLittle wide, told]
        exact .counted op width data.length form hfits
  · intro h
    generalize hlength : data.length = length at h
    cases h with
    | zero =>
        rw [List.length_eq_zero_iff.1 hlength]
        exact ⟨_, .opcode 0 (by decide), .zero⟩
    | direct length short =>
        subst hlength
        have htold : (UInt8.ofNat data.length).toNat = data.length :=
          UInt8.toNat_ofNat_of_lt' (Nat.lt_of_le_of_lt short.2 (by decide))
        exact ⟨_, .direct _ data short htold, .data _ data⟩
    | counted op width length form fits =>
        subst hlength
        have htold : Endian.ofLittle (Endian.toLittle width data.length) = data.length := by
          rw [Endian.ofLittle_toLittle, Nat.mod_eq_of_lt fits]
        exact ⟨_, .counted op width form _ data (Endian.length_toLittle _ _) htold, .data op data⟩

theorem pushHeader_isHeader {length : Nat} (h : pushHeader length = .ok header) :
    IsHeader header length := by
  unfold pushHeader at h
  split at h
  · next hshort =>
      cases h
      by_cases hzero : length = 0
      · rw [hzero]
        exact .zero
      · exact .direct length ⟨Nat.one_le_iff_ne_zero.2 hzero, hshort⟩
  split at h
  · next hbound =>
      cases h
      exact .counted 0x4c 1 length (by decide) (Nat.lt_succ_of_le hbound)
  split at h
  · next hbound =>
      cases h
      exact .counted 0x4d 2 length (by decide) (Nat.lt_succ_of_le hbound)
  split at h
  · next hbound =>
      cases h
      exact .counted 0x4e 4 length (by decide) (Nat.lt_succ_of_le hbound)
  · cases h

/-- No header is shorter than the one that is made, and no other is as short. -/
theorem pushHeader_shortest {length : Nat} (h : IsHeader header length) :
    ∃ shortest, pushHeader length = .ok shortest ∧
      (header = shortest ∨ shortest.length < header.length) := by
  cases h with
  | zero => exact ⟨[0], rfl, .inl rfl⟩
  | direct length short => exact ⟨_, if_pos short.2, .inl rfl⟩
  | counted op width length form fits =>
      have hwidth := Endian.length_toLittle width length
      simp only [List.mem_cons, Prod.mk.injEq, List.not_mem_nil, or_false] at form
      rcases form with ⟨rfl, rfl⟩ | ⟨rfl, rfl⟩ | ⟨rfl, rfl⟩
      · have hfits : length < 0x100 := fits
        unfold pushHeader
        split
        · exact ⟨_, rfl, .inr (by simp)⟩
        · rw [if_pos (by omega)]
          exact ⟨_, rfl, .inl rfl⟩
      · have hfits : length < 0x10000 := fits
        unfold pushHeader
        split
        · exact ⟨_, rfl, .inr (by simp)⟩
        split
        · exact ⟨_, rfl, .inr (by simp)⟩
        · rw [if_pos (by omega)]
          exact ⟨_, rfl, .inl rfl⟩
      · have hfits : length < 0x100000000 := fits
        unfold pushHeader
        split
        · exact ⟨_, rfl, .inr (by simp)⟩
        split
        · exact ⟨_, rfl, .inr (by simp)⟩
        split
        · exact ⟨_, rfl, .inr (by simp)⟩
        · rw [if_pos (by omega)]
          exact ⟨_, rfl, .inl rfl⟩

theorem isShortestHeader_of_pushHeader (h : pushHeader data.length = .ok header) :
    IsShortestHeader header data := by
  refine ⟨heads_iff.2 (pushHeader_isHeader h), ?_⟩
  intro header' hheads
  obtain ⟨shortest, hmade, horder⟩ := pushHeader_shortest (heads_iff.1 hheads)
  rw [h] at hmade
  rwa [Except.ok.inj hmade]

/-- A header is made exactly if it is the shortest one. -/
theorem pushHeader_eq_ok_iff :
    pushHeader data.length = .ok header ↔ IsShortestHeader header data := by
  constructor
  · exact isShortestHeader_of_pushHeader
  · intro h
    obtain ⟨shortest, hmade, -⟩ := pushHeader_shortest (heads_iff.1 h.heads)
    have hshortest := isShortestHeader_of_pushHeader hmade
    -- neither of two shortest headers is shorter than the other
    rcases h.shortest shortest hshortest.heads with rfl | hlt
    · exact hmade
    · rcases hshortest.shortest header h.heads with rfl | hlt'
      · exact hmade
      · omega

theorem pushHeader_tooBig {length : Nat} (h : UInt32.size ≤ length) :
    pushHeader length = .error .dataTooBig := by
  have hsize : UInt32.size = 0x100000000 := rfl
  unfold pushHeader
  rw [if_neg (by omega), if_neg (by omega), if_neg (by omega), if_neg (by omega)]

end Chunk

namespace Assembly

variable {s : Script} {data : Bytes} {items : List Bytes}

/-- A push either is appended as a whole or leaves the script as it was. -/
theorem push_eq (data : Bytes) (s : Script) : push data s =
    match s.appendPush data with
    | .ok s' => .ok () s'
    | .error e => .error e s := by
  unfold push Script.appendPush
  cases Chunk.pushHeader data.length with
  | ok header => rfl
  | error e => rfl

theorem push_tooBig (h : UInt32.size ≤ data.length) (s : Script) :
    push data s = .error .dataTooBig s := by
  rw [push_eq, Script.appendPush, Chunk.pushHeader_tooBig h]
  rfl

theorem pushAll_cons {item : Bytes} {s' : Script} (h : push item s = .ok () s') :
    pushAll (item :: items) s = pushAll items s' := by
  simp only [pushAll, List.forM_eq_forM, List.forM_cons, bind, EStateM.bind, h]

/-- Pushes are written behind what there is, and they are read back by themselves. -/
theorem exists_pushAll (h : ∀ item ∈ items, item.length < UInt32.size) (s : Script) :
    ∃ row, pushAll items s = .ok () ⟨s.bytes ++ row⟩ ∧ (Script.mk row).pushes = .ok items := by
  induction items generalizing s with
  | nil =>
      refine ⟨[], ?_, Script.pushes_nil⟩
      rw [List.append_nil]
      rfl
  | cons item items ih =>
      obtain ⟨hitem, hitems⟩ := List.forall_mem_cons.1 h
      obtain ⟨header, hheader⟩ := Chunk.exists_pushHeader (Nat.le_of_lt_succ hitem)
      have happend : s.appendPush item = .ok ⟨s.bytes ++ (header ++ item)⟩ :=
        Script.appendPush_eq_ok_iff.2 ⟨header, hheader, rfl⟩
      have hpush : push item s = .ok () ⟨s.bytes ++ (header ++ item)⟩ := by
        rw [push_eq, happend]
      obtain ⟨row, hrow, hpushes⟩ := ih hitems ⟨s.bytes ++ (header ++ item)⟩
      refine ⟨header ++ (item ++ row), ?_, ?_⟩
      · rw [pushAll_cons hpush, hrow, List.append_assoc, List.append_assoc]
      · rw [Script.pushes_push hheader, hpushes]
        rfl

/-- Pushes that are written to an empty script are read back as what was pushed, in order. The
header of a push is the shortest one, and data beyond its reach is refused with the script as it
was. -/
theorem push_readsBack :
    (∀ items : List Bytes, (∀ item ∈ items, item.length < UInt32.size) →
      ∃ s, pushAll items .empty = .ok () s ∧ s.pushes = .ok items) ∧
    (∀ data header : Bytes, Chunk.pushHeader data.length = .ok header ↔
      Chunk.IsShortestHeader header data) ∧
    ∀ (data : Bytes) (s : Script), UInt32.size ≤ data.length →
      push data s = .error .dataTooBig s := by
  refine ⟨?_, fun data header => Chunk.pushHeader_eq_ok_iff, fun data s h => push_tooBig h s⟩
  intro items h
  obtain ⟨row, hrow, hpushes⟩ := exists_pushAll h .empty
  exact ⟨_, hrow, hpushes⟩

/-- Items of the lengths at which the form of the header changes, and one that is too long. -/
theorem push_readsBack_borders :
    (∃ s, pushAll [[], List.replicate 75 1, List.replicate 76 2, List.replicate 256 3] .empty =
        .ok () s ∧
      s.pushes = .ok [[], List.replicate 75 1, List.replicate 76 2, List.replicate 256 3]) ∧
    push (List.replicate UInt32.size 0) ⟨[0x51]⟩ = .error .dataTooBig ⟨[0x51]⟩ := by
  obtain ⟨hitems, -, htooBig⟩ := push_readsBack
  refine ⟨hitems _ ?_, htooBig _ _ (Nat.le_of_eq List.length_replicate.symm)⟩
  simp only [List.forall_mem_cons, List.length_replicate]
  exact ⟨by decide, by decide, by decide, by decide, nofun⟩

end Assembly

end CashWallet
