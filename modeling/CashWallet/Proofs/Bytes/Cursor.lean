import CashWallet.Bytes.Cursor
import CashWallet.Proofs.Bytes.ReadBack

/-!
# Reading in place is reading

A walk follows a read if, from a position in front of some bytes, it ends as the read of these bytes
does and leaves the position behind what the read took. Since a read never ends in a sum beyond 64
bits, or outside of the bytes, neither does a walk that follows one.
-/

namespace CashWallet.Walk

variable {σ ε ε' α β : Type} {cursor : σ → Cursor}

/-- From a position in front of some bytes, the walk ends as the read of them does and takes the
same bytes. The cursor may be a part of a greater state. -/
def Follows (cursor : σ → Cursor) (w : Walk σ ε α) (r : Read ε α) : Prop :=
  ∀ s before unread, cursor s = ⟨before ++ unread, before.length⟩ →
    (before ++ unread).length < UInt64.size →
    ∃ taken, unread = taken ++ (r unread).2 ∧ (run w s).1 = (r unread).1.mapError .fault ∧
      cursor (run w s).2 = ⟨before ++ unread, (before ++ taken).length⟩

/-- A step that does not move the position and cannot fail. -/
def Stays (cursor : σ → Cursor) (w : Walk σ ε α) (value : Bytes → α) : Prop :=
  ∀ s before unread, cursor s = ⟨before ++ unread, before.length⟩ →
    ∃ s', run w s = (.ok (value unread), s') ∧ cursor s' = cursor s

/-! ## Compound walks -/

theorem follows_pure (a : α) : Follows cursor (pure a : Walk σ ε α) (pure a) := by
  intro s before unread hs _
  exact ⟨[], rfl, rfl, by rw [List.append_nil]; exact hs⟩

theorem follows_fail (e : ε) : Follows cursor (throw (.fault e) : Walk σ ε α) (.fail e) := by
  intro s before unread hs _
  exact ⟨[], rfl, rfl, by rw [List.append_nil]; exact hs⟩

theorem Follows.bind {w : Walk σ ε α} {r : Read ε α} {f : α → Walk σ ε β} {g : α → Read ε β}
    (hw : Follows cursor w r) (hf : ∀ a, Follows cursor (f a) (g a)) :
    Follows cursor (w >>= f) (r >>= g) := by
  intro s before unread hs hfits
  obtain ⟨taken, hsplit, hresult, hcursor⟩ := hw s before unread hs hfits
  rw [run_bind, Read.bind_run]
  cases hr : r unread with
  | mk result rest =>
      cases hstep : run w s with
      | mk result' s' =>
          rw [hr] at hsplit hresult
          rw [hstep] at hresult hcursor
          dsimp only at hsplit hresult hcursor
          subst hresult
          cases result with
          | error e => exact ⟨taken, hsplit, rfl, hcursor⟩
          | ok a =>
              have hplace : before ++ unread = before ++ taken ++ rest := by
                rw [hsplit, List.append_assoc]
              rw [hplace] at hcursor hfits
              obtain ⟨more, hmore, hend, hcursor'⟩ := hf a s' (before ++ taken) rest hcursor hfits
              refine ⟨taken ++ more, ?_, hend, ?_⟩
              · rw [List.append_assoc, ← hmore, ← hsplit]
              · rw [hplace, ← List.append_assoc]
                exact hcursor'

theorem Follows.map {w : Walk σ ε α} {r : Read ε α} (h : Follows cursor w r) (f : α → β) :
    Follows cursor (f <$> w) (f <$> r) :=
  h.bind fun a => follows_pure (f a)

theorem Follows.mapFault {w : Walk σ ε α} {r : Read ε α} (h : Follows cursor w r) (f : ε → ε') :
    Follows cursor (w.mapFault f) (r.mapError f) := by
  intro s before unread hs hfits
  obtain ⟨taken, hsplit, hresult, hcursor⟩ := h s before unread hs hfits
  have hrest : ((r.mapError f) unread).2 = (r unread).2 ∧
      ((r.mapError f) unread).1 = (r unread).1.mapError f := by
    rw [Read.mapError]
    cases r unread with
    | mk result rest => cases result <;> exact ⟨rfl, rfl⟩
  refine ⟨taken, by rw [hrest.1]; exact hsplit, ?_, hcursor⟩
  rw [run_mapFault, hresult, hrest.2]
  cases (r unread).1 <;> rfl

/-- What is only looked up or noted down does not change what a walk follows. -/
theorem Stays.bind {w : Walk σ ε α} {value : Bytes → α} {f : α → Walk σ ε β} {r : Read ε β}
    (hw : Stays cursor w value) (hf : ∀ a, Follows cursor (f a) r) :
    Follows cursor (w >>= f) r := by
  intro s before unread hs hfits
  obtain ⟨s', hstep, hcursor⟩ := hw s before unread hs
  rw [run_bind, hstep]
  exact hf _ s' before unread (hcursor.trans hs) hfits

/-! ## Single values -/

/-- The difference to the end is never below zero in front of the unread bytes. -/
theorem stays_remaining : Stays id (remaining : Walk Cursor ε Nat) List.length := by
  rintro s before unread (rfl : s = _)
  refine ⟨_, ?_, rfl⟩
  rw [remaining, run_bind, run_get]
  dsimp only
  rw [difference, List.length_append, if_pos (Nat.le_add_right _ _), Nat.add_sub_cancel_left]
  rfl

theorem run_slice {before unread : Bytes} {n : Nat} (hn : n ≤ unread.length) (position : Nat) :
    run (slice before.length (before.length + n) : Walk Cursor ε Bytes)
        ⟨before ++ unread, position⟩ =
      (.ok (unread.take n), ⟨before ++ unread, position⟩) := by
  have hinside : before.length ≤ before.length + n ∧
      before.length + n ≤ (before ++ unread).length := by
    rw [List.length_append]
    omega
  rw [slice, run_bind, run_get]
  dsimp only
  rw [if_pos hinside, run_pure, List.extract_eq_drop_take', List.take_length_add_append,
    List.drop_left]

theorem follows_bytes (n : Nat) : Follows id (bytes n) (Read.bytes n) := by
  rintro s before unread (rfl : s = _) hfits
  obtain ⟨s', hleft, hs'⟩ := stays_remaining (ε := CodecError) _ before unread rfl
  rw [id, id] at hs'
  subst hs'
  rw [Walk.bytes, run_bind, hleft, Read.bytes, List.length_take]
  dsimp only
  by_cases h : unread.length < n
  · rw [if_pos h, if_pos (Nat.lt_of_le_of_lt (Nat.min_le_right _ _) h)]
    exact ⟨[], rfl, rfl, by rw [List.append_nil]; rfl⟩
  · -- what is asked for is there, so the place behind it is a place of the bytes
    have hn : n ≤ unread.length := Nat.not_lt.1 h
    have hsum : before.length + n < UInt64.size := by
      rw [List.length_append] at hfits
      omega
    rw [if_neg h, if_neg (by rw [Nat.min_eq_left hn]; exact Nat.lt_irrefl n)]
    simp only [run_bind, run_get, sum, if_pos hsum, run_pure, run_slice hn, run_modify]
    refine ⟨unread.take n, (List.take_append_drop n unread).symm, rfl, ?_⟩
    rw [id, List.length_append, List.length_take, Nat.min_eq_left hn]

theorem follows_little (width : Nat) : Follows id (little width) (Read.little width) :=
  (follows_bytes width).map _

theorem follows_u8 : Follows id u8 Read.u8 := (follows_little 1).map _

theorem follows_u16 : Follows id u16 Read.u16 := (follows_little 2).map _

theorem follows_u32 : Follows id u32 Read.u32 := (follows_little 4).map _

theorem follows_u64 : Follows id u64 Read.u64 := (follows_little 8).map _

theorem follows_compactSize : Follows id compactSize Read.compactSize := by
  apply follows_u8.bind
  intro marker
  split
  · exact follows_u64
  split
  · exact follows_u32.map _
  split
  · exact follows_u16.map _
  · exact follows_pure _

theorem follows_varBytes : Follows id varBytes Read.varBytes :=
  follows_compactSize.bind fun count => follows_bytes count.toNat

theorem follows_field (kind : FieldKind) : Follows id kind.walk kind.read := by
  cases kind with
  | u8 => exact follows_u8.map _
  | u16 => exact follows_u16.map _
  | u32 => exact follows_u32.map _
  | u64 => exact follows_u64.map _
  | compactSize => exact follows_compactSize.map _
  | varBytes => exact follows_varBytes.map _
  | bytes n => exact (follows_bytes n).map _

end CashWallet.Walk
