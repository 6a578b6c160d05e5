import CashWallet.Proofs.Bytes.Sessions

/-!
# Written fields are read back

Fields that are written one after the other are read back in order by reads of their kinds, and the
last of these reads leaves exactly what stands behind them. A count is written in as many bytes as
it needs, and it is read off no fewer.
-/

namespace CashWallet

namespace Field

/-- A field is read back by its kind. Its written form has a length of 64 bits, so that the length
of a string in it is a count that can be written. -/
theorem takes_encode {f : Field} (h : f.encode.length < UInt64.size) :
    f.kind.read.Takes f.encode f := by
  cases f with
  | u8 v => exact (Read.takes_u8 v).map u8
  | u16 v => exact (Read.takes_u16 v).map u16
  | u32 v => exact (Read.takes_u32 v).map u32
  | u64 v => exact (Read.takes_u64 v).map u64
  | compactSize v => exact (Read.takes_compactSize v).map compactSize
  | bytes bs => exact (Read.takes_bytes bs).map bytes
  | varBytes bs =>
      have hcounted : bs.length < UInt64.size := by
        rw [encode, encodeVarBytes, List.length_append] at h
        omega
      exact (Read.takes_varBytes hcounted).map varBytes

theorem encodeAll_cons (f : Field) (fields : List Field) :
    encodeAll (f :: fields) = f.encode ++ encodeAll fields := rfl

end Field

namespace Cursor

open CashWallet.Field (encodeAll encodeAll_cons)

variable {before trailer : Bytes}

/-- The read of a written field in place. -/
theorem walk_encode (f : Field) (rest : Bytes)
    (hfits : (before ++ (f.encode ++ rest)).length < UInt64.size) :
    f.kind.walk.run ⟨before ++ (f.encode ++ rest), before.length⟩ =
      (.ok f, ⟨before ++ (f.encode ++ rest), (before ++ f.encode).length⟩) := by
  have hwritten : f.encode.length < UInt64.size := by
    simp only [List.length_append] at hfits
    omega
  obtain ⟨part, hsplit, -, hrun⟩ := walk_reads f.kind hfits
  rw [Field.takes_encode hwritten rest] at hsplit hrun
  rw [hrun, ← List.append_cancel_right hsplit]
  rfl

/-- Reads of written fields leave the position behind them, wherever it stood. -/
theorem after_encodeAll {fields : List Field}
    (hfits : (before ++ (encodeAll fields ++ trailer)).length < UInt64.size) :
    after ⟨before ++ (encodeAll fields ++ trailer), before.length⟩ (fields.map Field.kind) =
      ⟨before ++ (encodeAll fields ++ trailer), (before ++ encodeAll fields).length⟩ := by
  induction fields generalizing before with
  | nil => rw [encodeAll, List.flatMap_nil, List.append_nil]; rfl
  | cons f fields ih =>
      have hassoc : before ++ (f.encode ++ (encodeAll fields ++ trailer)) =
          before ++ f.encode ++ (encodeAll fields ++ trailer) := (List.append_assoc ..).symm
      rw [encodeAll_cons, List.append_assoc] at hfits ⊢
      have hrun := walk_encode f (encodeAll fields ++ trailer) hfits
      rw [hassoc] at hfits hrun ⊢
      rw [List.map_cons, after, List.foldl_cons, hrun, ← List.append_assoc before]
      exact ih hfits

end Cursor

namespace Field

theorem readAll_encodeAll {fields : List Field} {trailer : Bytes}
    (h : (encodeAll fields ++ trailer).length < UInt64.size) :
    (FieldKind.readAll (fields.map kind) (encodeAll fields ++ trailer)).map Prod.fst =
      fields.map .ok := by
  induction fields with
  | nil => rfl
  | cons f fields ih =>
      rw [encodeAll_cons, List.append_assoc, List.length_append] at h
      have hread := takes_encode (f := f) (by omega) (encodeAll fields ++ trailer)
      rw [encodeAll_cons, List.append_assoc, List.map_cons, FieldKind.readAll, hread]
      rw [List.map_cons, List.map_cons, ih (by omega)]

/-- Written fields, whatever stands behind them, are read back in order by reads of their kinds, in
place and off the front. These reads leave exactly what stands behind. A count is written in the
bytes that it needs, is read back, and is read off no fewer bytes. -/
theorem encodeAll_readBack :
    (∀ (fields : List Field) (trailer : Bytes),
        (encodeAll fields ++ trailer).length < UInt64.size →
        let c := Cursor.start (encodeAll fields ++ trailer)
        let kinds := fields.map kind
        (FieldKind.readAll kinds c.data).map Prod.fst = fields.map .ok ∧
          (c.readAll kinds).map Prod.fst = fields.map .ok ∧ (c.after kinds).unread = trailer) ∧
      ∀ n : UInt64, (CompactSize.encode n).length = CompactSize.size n ∧
        (∀ trailer, Read.compactSize (CompactSize.encode n ++ trailer) = (.ok n, trailer)) ∧
        ∀ bs rest, Read.compactSize bs = (.ok n, rest) → CompactSize.size n ≤ bs.length := by
  constructor
  · intro fields trailer h c kinds
    have hresults := readAll_encodeAll h
    refine ⟨hresults, ?_, ?_⟩
    · have hdata : c.data = [] ++ (encodeAll fields ++ trailer) := rfl
      have hinPlace : (c.readAll kinds).map Prod.fst = _ := Cursor.results_eq h hdata
      rw [hinPlace, hresults, List.map_map]
      rfl
    · have hafter : c.after kinds = _ := @Cursor.after_encodeAll [] trailer fields h
      rw [Cursor.unread, hafter]
      exact List.drop_left
  · intro n
    refine ⟨CompactSize.length_encode n, Read.takes_compactSize n, ?_⟩
    intro bs rest hread
    obtain ⟨form, rfl, rfl⟩ := Read.spans_compactSize.iff.1 hread
    rw [List.length_append]
    exact Nat.le_trans form.size_value_le (Nat.le_add_right _ _)

/-- Fields on both sides of each change of width, and a count in a longer form than it needs. -/
theorem encodeAll_readBack_borders :
    let fields := [compactSize 0xfc, compactSize 0xfd, varBytes [7, 8], compactSize 0xffff,
      compactSize 0x10000, bytes [], compactSize 0xffffffff, compactSize 0x100000000, u64 5]
    let c := Cursor.start (encodeAll fields ++ [9, 9])
    (encodeAll fields ++ [9, 9]).length < UInt64.size ∧
      (c.readAll (fields.map kind)).map Prod.fst = fields.map .ok ∧
      (c.after (fields.map kind)).unread = [9, 9] ∧
      Read.compactSize [0xfe, 5, 0, 0, 0, 9] = (.ok 5, [9]) ∧ CompactSize.size 5 ≤ 6 := by
  have h := encodeAll_readBack
  have hread : Read.compactSize [0xfe, 5, 0, 0, 0, 9] = (.ok 5, [9]) := by rfl
  obtain ⟨-, hresults, hunread⟩ := h.1 [compactSize 0xfc, compactSize 0xfd, varBytes [7, 8],
    compactSize 0xffff, compactSize 0x10000, bytes [], compactSize 0xffffffff,
    compactSize 0x100000000, u64 5] [9, 9] (by decide)
  exact ⟨by decide, hresults, hunread, hread, (h.2 5).2.2 _ _ hread⟩

end Field

end CashWallet
