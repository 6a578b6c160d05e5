import CashWallet.Bytes.Layout
import CashWallet.Proofs.Bytes.ReadBack

/-!
# What a read took

A read that succeeds has taken the bytes of a layout off the front and gives the value of that
layout, and it succeeds wherever the bytes of a layout lie in front. Together the two say exactly
what is read. Layouts delimit themselves, so the bytes tell which layout was taken.
-/

namespace CashWallet

theorem Endian.ofLittle_lt (bs : Bytes) : Endian.ofLittle bs < Nat.pow 256 bs.length := by
  induction bs with
  | nil => decide
  | cons b bs ih =>
      have hb : b.toNat < 256 := b.toNat_lt
      calc
        Endian.ofLittle (b :: bs) = b.toNat + 256 * Endian.ofLittle bs := rfl
        _ < 256 * (Endian.ofLittle bs + 1) := by omega
        _ ≤ 256 * Nat.pow 256 bs.length := Nat.mul_le_mul_left 256 ih
        _ = Nat.pow 256 (b :: bs).length := Nat.mul_comm ..

namespace Read

open CompactSize (Form)

variable {ε ε' α β κ : Type} {unread rest : Bytes}

/-! ## Successes of compound reads -/

theorem bind_eq_ok_iff {r : Read ε α} {f : α → Read ε β} {b : β} :
    (r >>= f) unread = (.ok b, rest) ↔
      ∃ a middle, r unread = (.ok a, middle) ∧ f a middle = (.ok b, rest) := by
  rw [bind_run]
  constructor
  · intro h
    split at h
    · next a middle hr => exact ⟨a, middle, hr, h⟩
    · cases h
  · rintro ⟨a, middle, hr, hf⟩
    rw [hr]
    exact hf

theorem pure_eq_ok_iff {a b : α} :
    (pure a : Read ε α) unread = (.ok b, rest) ↔ a = b ∧ unread = rest := by
  rw [pure_run, Prod.mk.injEq, Except.ok.injEq]

theorem map_eq_ok_iff {r : Read ε α} {f : α → β} {b : β} :
    (f <$> r) unread = (.ok b, rest) ↔ ∃ a, r unread = (.ok a, rest) ∧ f a = b := by
  change (r >>= fun a => pure (f a)) unread = _ ↔ _
  simp only [bind_eq_ok_iff, pure_eq_ok_iff]
  constructor
  · rintro ⟨a, middle, hr, hb, rfl⟩
    exact ⟨a, hr, hb⟩
  · rintro ⟨a, hr, hb⟩
    exact ⟨a, rest, hr, hb, rfl⟩

theorem mapError_eq_ok_iff {r : Read ε α} {f : ε → ε'} {a : α} :
    (r.mapError f) unread = (.ok a, rest) ↔ r unread = (.ok a, rest) := by
  unfold mapError
  constructor
  · intro h
    split at h
    · next hr =>
        cases h
        exact hr
    · cases h
  · intro h
    rw [h]

/-! ## Layouts -/

/-- A read succeeds exactly where the bytes of a layout lie in front. It takes these bytes and gives
the value of the layout. -/
def Spans (r : Read ε α) (bytes : κ → Bytes) (value : κ → α) : Prop :=
  ∀ unread rest a, r unread = (.ok a, rest) ↔ ∃ l, value l = a ∧ unread = bytes l ++ rest

theorem Spans.iff {r : Read ε α} {bytes : κ → Bytes} {value : κ → α} (h : r.Spans bytes value)
    {unread rest : Bytes} {a : α} :
    r unread = (.ok a, rest) ↔ ∃ l, value l = a ∧ unread = bytes l ++ rest :=
  h unread rest a

theorem Spans.takes {r : Read ε α} {bytes : κ → Bytes} {value : κ → α} (h : r.Spans bytes value)
    (l : κ) : r.Takes (bytes l) (value l) :=
  fun _ => h.iff.2 ⟨l, rfl, rfl⟩

/-- A read that takes every layout spans them if it takes nothing else. -/
theorem spans_of_takes {r : Read ε α} {bytes : κ → Bytes} {value : κ → α}
    (htakes : ∀ l, r.Takes (bytes l) (value l))
    (honly : ∀ unread rest a, r unread = (.ok a, rest) →
      ∃ l, value l = a ∧ unread = bytes l ++ rest) : r.Spans bytes value := by
  intro unread rest a
  constructor
  · exact honly unread rest a
  · rintro ⟨l, rfl, rfl⟩
    exact htakes l rest

/-- What is read a number of times is that many layouts in a row. -/
theorem Spans.times {r : Read ε α} {bytes : κ → Bytes} {value : κ → α}
    (h : r.Spans bytes value) {n : Nat} {as : List α} :
    (r.times n) unread = (.ok as, rest) ↔
      ∃ ls : List κ, ls.length = n ∧ ls.map value = as ∧ unread = ls.flatMap bytes ++ rest := by
  induction n generalizing unread rest as with
  | zero =>
      rw [Read.times, pure_eq_ok_iff]
      constructor
      · rintro ⟨rfl, rfl⟩
        exact ⟨[], rfl, rfl, rfl⟩
      · rintro ⟨ls, hlength, rfl, rfl⟩
        cases List.length_eq_zero_iff.1 hlength
        exact ⟨rfl, rfl⟩
  | succ n ih =>
      simp only [Read.times, bind_eq_ok_iff, pure_eq_ok_iff, ih]
      constructor
      · rintro ⟨a, middle, hhead, tail, _, ⟨ls, rfl, rfl, rfl⟩, rfl, rfl⟩
        obtain ⟨l, rfl, rfl⟩ := h.iff.1 hhead
        exact ⟨l :: ls, rfl, rfl, by rw [List.flatMap_cons, List.append_assoc]⟩
      · rintro ⟨ls, hlength, rfl, rfl⟩
        obtain ⟨l, ls, rfl⟩ := List.exists_cons_of_length_eq_add_one hlength
        refine ⟨value l, ls.flatMap bytes ++ rest, ?_, ls.map value, rest,
          ⟨ls, Nat.succ.inj hlength, rfl, rfl⟩, rfl, rfl⟩
        rw [List.flatMap_cons, List.append_assoc]
        exact h.takes l _

/-! ## Single values -/

theorem bytes_eq_ok_iff {n : Nat} {taken : Bytes} :
    bytes n unread = (.ok taken, rest) ↔ taken.length = n ∧ unread = taken ++ rest := by
  constructor
  · intro h
    simp only [bytes] at h
    split at h
    · cases h
    · next hlength =>
        cases h
        refine ⟨?_, (List.take_append_drop n unread).symm⟩
        have := List.length_take_le n unread
        omega
  · rintro ⟨rfl, rfl⟩
    exact takes_bytes taken rest

/-- The number that is read stands in front with all of its bytes. -/
theorem little_eq_ok {width n : Nat} (h : little width unread = (.ok n, rest)) :
    n < Nat.pow 256 width ∧ unread = Endian.toLittle width n ++ rest := by
  obtain ⟨taken, htaken, rfl⟩ := map_eq_ok_iff.1 h
  obtain ⟨hlength, rfl⟩ := bytes_eq_ok_iff.1 htaken
  rw [Endian.toLittle_ofLittle hlength, ← hlength]
  exact ⟨Endian.ofLittle_lt taken, rfl⟩

theorem spans_u8 : u8.Spans (fun b => [b]) id := by
  apply spans_of_takes takes_u8
  intro unread rest b h
  obtain ⟨n, hn, rfl⟩ := map_eq_ok_iff.1 h
  obtain ⟨-, rfl⟩ := little_eq_ok hn
  exact ⟨_, rfl, rfl⟩

theorem spans_u16 : u16.Spans (fun v => Endian.toLittle 2 v.toNat) id := by
  apply spans_of_takes takes_u16
  intro unread rest v h
  obtain ⟨n, hn, rfl⟩ := map_eq_ok_iff.1 h
  obtain ⟨hlt, rfl⟩ := little_eq_ok hn
  exact ⟨_, rfl, by rw [UInt16.toNat_ofNat_of_lt' hlt]⟩

theorem spans_u32 : u32.Spans (fun v => Endian.toLittle 4 v.toNat) id := by
  apply spans_of_takes takes_u32
  intro unread rest v h
  obtain ⟨n, hn, rfl⟩ := map_eq_ok_iff.1 h
  obtain ⟨hlt, rfl⟩ := little_eq_ok hn
  exact ⟨_, rfl, by rw [UInt32.toNat_ofNat_of_lt' hlt]⟩

theorem spans_u64 : u64.Spans (fun v => Endian.toLittle 8 v.toNat) id := by
  apply spans_of_takes takes_u64
  intro unread rest v h
  obtain ⟨n, hn, rfl⟩ := map_eq_ok_iff.1 h
  obtain ⟨hlt, rfl⟩ := little_eq_ok hn
  exact ⟨_, rfl, by rw [UInt64.toNat_ofNat_of_lt' hlt]⟩

/-- What is read as a compact-size integer stands in one of the four forms. -/
theorem spans_compactSize : compactSize.Spans Form.bytes Form.value := by
  apply spans_of_takes takes_form
  intro unread rest n h
  obtain ⟨marker, middle, hmarker, hvalue⟩ := bind_eq_ok_iff.1 h
  have hunread : unread = marker :: middle := by
    obtain ⟨byte, hbyte, hunread⟩ := spans_u8.iff.1 hmarker
    rw [hunread, ← hbyte]
    rfl
  rw [hunread]
  split at hvalue
  · next heq =>
      obtain ⟨v, rfl, rfl⟩ := spans_u64.iff.1 hvalue
      exact ⟨.nine v, rfl, by rw [heq, Form.bytes, List.cons_append]⟩
  split at hvalue
  · next heq =>
      obtain ⟨_, hv, rfl⟩ := map_eq_ok_iff.1 hvalue
      obtain ⟨v, rfl, rfl⟩ := spans_u32.iff.1 hv
      exact ⟨.five v, rfl, by rw [heq, Form.bytes, List.cons_append]⟩
  split at hvalue
  · next heq =>
      obtain ⟨_, hv, rfl⟩ := map_eq_ok_iff.1 hvalue
      obtain ⟨v, rfl, rfl⟩ := spans_u16.iff.1 hv
      exact ⟨.three v, rfl, by rw [heq, Form.bytes, List.cons_append]⟩
  · next hff hfe hfd =>
      obtain ⟨rfl, rfl⟩ := pure_eq_ok_iff.1 hvalue
      have hunmarked : marker < 0xfd := by
        have hlt := marker.toNat_lt
        rw [← UInt8.toNat_inj] at hff hfe hfd
        rw [UInt8.lt_iff_toNat_lt]
        simp only [UInt8.reduceToNat] at hff hfe hfd ⊢
        omega
      exact ⟨.one marker hunmarked, rfl, rfl⟩

/-- Bytes behind their count, whatever the form of the count is. -/
theorem spans_varBytes : varBytes.Spans Counted.script Counted.items := by
  intro unread rest bs
  simp only [varBytes, bind_eq_ok_iff, bytes_eq_ok_iff]
  constructor
  · rintro ⟨n, middle, hcount, hlength, rfl⟩
    obtain ⟨count, rfl, rfl⟩ := spans_compactSize.iff.1 hcount
    exact ⟨⟨count, bs, hlength⟩, rfl, by rw [Counted.script_eq, List.append_assoc]⟩
  · rintro ⟨⟨count, items, hlength⟩, rfl, rfl⟩
    refine ⟨count.value, items ++ rest, ?_, hlength, rfl⟩
    rw [Counted.script_eq, List.append_assoc]
    exact takes_form count _

end Read

/-! ## Layouts delimit themselves -/

/-- The bytes of a layout, with anything behind them, tell the layout and what is behind it. -/
def Delimits {κ : Type} (bytes : κ → Bytes) : Prop :=
  ∀ l l' s s', bytes l ++ s = bytes l' ++ s' → l = l' ∧ s = s'

section

variable {ε α κ : Type} {bytes : κ → Bytes} {s s' : Bytes}

theorem delimits_of_takes {r : Read ε α} {value : κ → α}
    (htakes : ∀ l, r.Takes (bytes l) (value l))
    (hinj : ∀ l l', value l = value l' → (bytes l).length = (bytes l').length → l = l') :
    Delimits bytes := by
  intro l l' s s' heq
  obtain ⟨hvalue, rfl⟩ := (htakes l).selfDelimiting (htakes l') heq
  exact ⟨hinj l l' hvalue (congrArg List.length (List.append_cancel_right heq)), rfl⟩

theorem delimits_form : Delimits CompactSize.Form.bytes :=
  delimits_of_takes Read.takes_form fun _ _ => CompactSize.Form.ext_of_length

theorem delimits_byte : Delimits fun b : UInt8 => [b] :=
  delimits_of_takes Read.takes_u8 fun _ _ h _ => h

/-- Equally many layouts in a row are told apart without a count. -/
theorem Delimits.flatMap (h : Delimits bytes) {ls ls' : List κ} (hlength : ls.length = ls'.length)
    (heq : ls.flatMap bytes ++ s = ls'.flatMap bytes ++ s') : ls = ls' ∧ s = s' := by
  induction ls generalizing ls' with
  | nil =>
      cases List.length_eq_zero_iff.1 hlength.symm
      exact ⟨rfl, heq⟩
  | cons l ls ih =>
      obtain ⟨l', ls', rfl⟩ := List.exists_cons_of_length_eq_add_one hlength.symm
      rw [List.flatMap_cons, List.flatMap_cons, List.append_assoc, List.append_assoc] at heq
      obtain ⟨rfl, htail⟩ := h _ _ _ _ heq
      obtain ⟨rfl, hrest⟩ := ih (Nat.succ.inj hlength) htail
      exact ⟨rfl, hrest⟩

theorem Delimits.counted (h : Delimits bytes) : Delimits (Counted.bytes bytes) := by
  rintro ⟨count, items, hitems⟩ ⟨count', items', hitems'⟩ s s' heq
  simp only [Counted.bytes, List.append_assoc] at heq
  obtain ⟨rfl, htail⟩ := delimits_form _ _ _ _ heq
  obtain ⟨rfl, hrest⟩ := h.flatMap (hitems.trans hitems'.symm) htail
  exact ⟨rfl, hrest⟩

theorem delimits_script : Delimits Counted.script :=
  delimits_byte.counted

end

end CashWallet
