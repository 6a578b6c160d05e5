import CashWallet.Bytes.Layout

/-!
# Reading back what was written

A read takes a written form if it gives the value and leaves the rest, whatever the rest is. A read
is local if a success stays the same success when more bytes follow. A local read that takes each
written form cannot succeed on a proper part of one.
-/

namespace CashWallet.Read

variable {ε ε' α β : Type}

/-- The read takes exactly these bytes off the front of anything and gives this value. -/
def Takes (r : Read ε α) (written : Bytes) (a : α) : Prop :=
  ∀ rest, r (written ++ rest) = (.ok a, rest)

/-- A success neither changes nor takes more when more bytes follow. -/
def Local (r : Read ε α) : Prop :=
  ∀ unread rest a, r unread = (.ok a, rest) → ∀ more, r (unread ++ more) = (.ok a, rest ++ more)

/-! ## Written forms of compound reads -/

theorem takes_pure (a : α) : (pure a : Read ε α).Takes [] a := by
  intro rest
  rfl

theorem Takes.bind {r : Read ε α} {f : α → Read ε β} {written more : Bytes} {a : α} {b : β}
    (hr : r.Takes written a) (hf : (f a).Takes more b) : (r >>= f).Takes (written ++ more) b := by
  intro rest
  rw [bind_run, List.append_assoc, hr]
  exact hf rest

theorem Takes.map {r : Read ε α} {written : Bytes} {a : α} (hr : r.Takes written a) (f : α → β) :
    (f <$> r).Takes written (f a) := by
  have h : (r >>= fun x => pure (f x)).Takes (written ++ []) (f a) := hr.bind (takes_pure (f a))
  rwa [List.append_nil] at h

theorem Takes.mapError {r : Read ε α} {written : Bytes} {a : α} (hr : r.Takes written a)
    (f : ε → ε') : (r.mapError f).Takes written a := by
  intro rest
  simp only [Read.mapError, hr rest]

/-- A read that takes the written form of each value takes those of a list, one after the other. -/
theorem Takes.times {r : Read ε α} {encode : α → Bytes} {values : List α}
    (hr : ∀ a ∈ values, r.Takes (encode a) a) :
    (r.times values.length).Takes (values.flatMap encode) values := by
  induction values with
  | nil => exact takes_pure []
  | cons a values ih =>
      have htail := ih fun b hb => hr b (List.mem_cons_of_mem a hb)
      intro rest
      simp only [List.length_cons, Read.times, List.flatMap_cons, List.append_assoc, bind_run,
        hr a List.mem_cons_self _, htail _, pure_run]

/-! ## Written forms of single values -/

theorem takes_bytes (bs : Bytes) : (bytes bs.length).Takes bs bs := by
  intro rest
  simp [bytes]

theorem takes_little {width n : Nat} (hn : n < Nat.pow 256 width) :
    (little width).Takes (Endian.toLittle width n) n := by
  have h := (takes_bytes (Endian.toLittle width n)).map fun bs => Endian.ofLittle bs
  rwa [Endian.length_toLittle, Endian.ofLittle_toLittle, Nat.mod_eq_of_lt hn] at h

theorem takes_u8 (b : UInt8) : u8.Takes [b] b := by
  have hlt : b.toNat < Nat.pow 256 1 := b.toNat_lt
  have h := (takes_little hlt).map UInt8.ofNat
  rwa [UInt8.ofNat_toNat, Endian.toLittle, Endian.toLittle, UInt8.ofNat_toNat] at h

theorem takes_u16 (v : UInt16) : u16.Takes (Endian.toLittle 2 v.toNat) v := by
  have hlt : v.toNat < Nat.pow 256 2 := v.toNat_lt
  have h := (takes_little hlt).map UInt16.ofNat
  rwa [UInt16.ofNat_toNat] at h

theorem takes_u32 (v : UInt32) : u32.Takes (Endian.toLittle 4 v.toNat) v := by
  have hlt : v.toNat < Nat.pow 256 4 := v.toNat_lt
  have h := (takes_little hlt).map UInt32.ofNat
  rwa [UInt32.ofNat_toNat] at h

theorem takes_u64 (v : UInt64) : u64.Takes (Endian.toLittle 8 v.toNat) v := by
  have hlt : v.toNat < Nat.pow 256 8 := v.toNat_lt
  have h := (takes_little hlt).map UInt64.ofNat
  rwa [UInt64.ofNat_toNat] at h

/-- A number is read in whichever form it stands. -/
theorem takes_form (f : CompactSize.Form) : compactSize.Takes f.bytes f.value := by
  cases f with
  | one byte unmarked =>
      have hmarker (m : UInt8) (hm : 0xfd ≤ m) : byte ≠ m := by
        rintro rfl
        exact UInt8.not_lt.2 hm unmarked
      have htail : (if byte = 0xff then u64
          else if byte = 0xfe then UInt32.toUInt64 <$> u32
          else if byte = 0xfd then UInt16.toUInt64 <$> u16
          else pure byte.toUInt64).Takes [] byte.toUInt64 := by
        rw [if_neg (hmarker _ (by decide)), if_neg (hmarker _ (by decide)),
          if_neg (hmarker _ (by decide))]
        exact takes_pure _
      exact (takes_u8 byte).bind htail
  | three v => exact (takes_u8 0xfd).bind ((takes_u16 v).map UInt16.toUInt64)
  | five v => exact (takes_u8 0xfe).bind ((takes_u32 v).map UInt32.toUInt64)
  | nine v => exact (takes_u8 0xff).bind (takes_u64 v)

/-- Every number is read back from its shortest form, on both sides of each change of width. -/
theorem takes_compactSize (n : UInt64) : compactSize.Takes (CompactSize.encode n) n := by
  have h := takes_form (.shortest n)
  rwa [CompactSize.Form.bytes_shortest, CompactSize.Form.value_shortest] at h

/-- The count in front of a byte string is a number of 64 bits, so longer strings have no written
form that is read back. -/
theorem takes_varBytes {bs : Bytes} (h : bs.length < UInt64.size) :
    varBytes.Takes (Field.encodeVarBytes bs) bs := by
  have hcount : (UInt64.ofNat bs.length).toNat = bs.length := UInt64.toNat_ofNat_of_lt' h
  have htail := takes_bytes bs
  rw [← hcount] at htail
  exact (takes_compactSize _).bind htail

/-! ## Local reads -/

theorem local_pure (a : α) : (pure a : Read ε α).Local := by
  rintro unread rest b ⟨⟩ more
  rfl

theorem local_fail (e : ε) : (fail e : Read ε α).Local := by
  rintro unread rest a ⟨⟩

theorem Local.bind {r : Read ε α} {f : α → Read ε β} (hr : r.Local) (hf : ∀ a, (f a).Local) :
    (r >>= f).Local := by
  intro unread rest b h more
  rw [bind_run] at h ⊢
  split at h
  · next a unread' hstep =>
      rw [hr unread unread' a hstep more]
      exact hf a unread' rest b h more
  · cases h

theorem Local.map {r : Read ε α} (hr : r.Local) (f : α → β) : (f <$> r).Local :=
  hr.bind fun a => local_pure (f a)

theorem Local.mapError {r : Read ε α} (hr : r.Local) (f : ε → ε') : (r.mapError f).Local := by
  intro unread rest a h more
  simp only [Read.mapError] at h ⊢
  split at h
  · next b unread' hstep =>
      cases h
      rw [hr unread rest a hstep more]
  · cases h

theorem Local.times {r : Read ε α} (hr : r.Local) (n : Nat) : (r.times n).Local := by
  induction n with
  | zero => exact local_pure []
  | succ n ih => exact hr.bind fun a => ih.bind fun rest => local_pure (a :: rest)

theorem local_bytes (n : Nat) : (bytes n).Local := by
  intro unread rest taken h more
  simp only [bytes, List.length_take] at h ⊢
  split at h
  · cases h
  · next hlen =>
      have hn : n ≤ unread.length := by omega
      cases h
      rw [if_neg (by rw [List.length_append]; omega), List.take_append_of_le_length hn,
        List.drop_append_of_le_length hn]

theorem local_little (width : Nat) : (little width).Local :=
  (local_bytes width).map _

theorem local_u8 : u8.Local := (local_little 1).map _

theorem local_u16 : u16.Local := (local_little 2).map _

theorem local_u32 : u32.Local := (local_little 4).map _

theorem local_u64 : u64.Local := (local_little 8).map _

theorem local_compactSize : compactSize.Local := by
  apply local_u8.bind
  intro marker
  split
  · exact local_u64
  split
  · exact local_u32.map _
  split
  · exact local_u16.map _
  · exact local_pure _

theorem local_varBytes : varBytes.Local :=
  local_compactSize.bind fun count => local_bytes count.toNat

/-! ## Self-delimiting forms -/

/-- Two written forms with anything behind them are equal only if the values are, and then what
stands behind them is equal as well. -/
theorem Takes.selfDelimiting {r : Read ε α} {written written' rest rest' : Bytes} {a a' : α}
    (h : r.Takes written a) (h' : r.Takes written' a') (heq : written ++ rest = written' ++ rest') :
    a = a' ∧ rest = rest' := by
  have hboth : (Except.ok a, rest) = ((Except.ok a' : Except ε α), rest') := by
    rw [← h rest, ← h' rest', heq]
  simpa using hboth

theorem Takes.inj {r : Read ε α} {written : Bytes} {a a' : α} (h : r.Takes written a)
    (h' : r.Takes written a') : a = a' := by
  have heq : written ++ [] = written ++ [] := rfl
  exact (h.selfDelimiting h' heq).1

/-- Written forms that follow one another need no count to be told apart, as long as none of them is
empty. -/
theorem Takes.flatMap_inj {r : Read ε α} {encode : α → Bytes} (hne : ∀ a, encode a ≠ [])
    {as bs : List α} (has : ∀ a ∈ as, r.Takes (encode a) a) (hbs : ∀ b ∈ bs, r.Takes (encode b) b)
    (h : as.flatMap encode = bs.flatMap encode) : as = bs := by
  induction as generalizing bs with
  | nil =>
      cases bs with
      | nil => rfl
      | cons b bs => simp [hne b] at h
  | cons a as ih =>
      cases bs with
      | nil => simp [hne a] at h
      | cons b bs =>
          obtain ⟨ha, has⟩ := List.forall_mem_cons.1 has
          obtain ⟨hb, hbs⟩ := List.forall_mem_cons.1 hbs
          rw [List.flatMap_cons, List.flatMap_cons] at h
          obtain ⟨hhead, htail⟩ := ha.selfDelimiting hb h
          rw [hhead, ih has hbs htail]

/-- A local read does not succeed on a proper part of a written form. -/
theorem Takes.error_of_proper_part {r : Read ε α} {written part more : Bytes} {a : α}
    (h : r.Takes written a) (hlocal : r.Local) (heq : part ++ more = written) (hmore : more ≠ []) :
    ∃ e rest, r part = (.error e, rest) := by
  cases hpart : r part with
  | mk result rest =>
      cases result with
      | error e => exact ⟨e, rest, rfl⟩
      | ok b =>
          have hwhole := h []
          rw [List.append_nil, ← heq, hlocal part rest b hpart more] at hwhole
          have hnil : rest ++ more = [] := (Prod.mk.inj hwhole).2
          exact absurd (List.append_eq_nil_iff.1 hnil).2 hmore

end CashWallet.Read
