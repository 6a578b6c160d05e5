import CashWallet.Proofs.Bytes.Cursor
import CashWallet.Proofs.Bytes.Layout

/-!
# Reads in a row

A read finds a field in the bytes in front of it, or it lacks some of the bytes that it wants.
Either way it passes some bytes, and the next read stands in front of what these leave. So the bytes
passed so far are always those before the position, whatever has failed on the way.
-/

namespace CashWallet

namespace Read

variable {ε α β : Type} {unread rest : Bytes} {e : ε}

/-! ## Failures of compound reads -/

theorem bind_eq_error_iff {r : Read ε α} {f : α → Read ε β} :
    (r >>= f) unread = (.error e, rest) ↔ r unread = (.error e, rest) ∨
      ∃ a middle, r unread = (.ok a, middle) ∧ f a middle = (.error e, rest) := by
  rw [bind_run]
  constructor
  · intro h
    split at h
    · next a middle hr => exact .inr ⟨a, middle, hr, h⟩
    · next fault middle hr =>
        cases h
        exact .inl hr
  · rintro (hr | ⟨a, middle, hr, hf⟩)
    · rw [hr]
    · rw [hr]
      exact hf

theorem map_eq_error_iff {r : Read ε α} {f : α → β} :
    (f <$> r) unread = (.error e, rest) ↔ r unread = (.error e, rest) := by
  change (r >>= fun a => pure (f a)) unread = _ ↔ _
  simp [bind_eq_error_iff]

theorem bytes_eq_error_iff {n : Nat} {e : CodecError} :
    bytes n unread = (.error e, rest) ↔
      unread.length < n ∧ e = .endOfData n unread.length ∧ rest = unread := by
  have hshort : (unread.take n).length < n ↔ unread.length < n := by
    rw [List.length_take]
    omega
  simp only [bytes, hshort]
  split
  · next h =>
      rw [Prod.mk.injEq, Except.error.injEq]
      exact ⟨fun heq => ⟨h, heq.1.symm, heq.2.symm⟩, fun heq => ⟨heq.2.1.symm, heq.2.2.symm⟩⟩
  · next h =>
      constructor
      · intro heq
        cases heq
      · intro heq
        exact absurd heq.1 h

theorem little_eq_error_iff {width : Nat} {f : Nat → α} {e : CodecError} :
    (f <$> little width) unread = (.error e, rest) ↔
      unread.length < width ∧ e = .endOfData width unread.length ∧ rest = unread := by
  rw [map_eq_error_iff, little, map_eq_error_iff, bytes_eq_error_iff]

end Read

namespace FieldKind

open CompactSize (Form)

/-- How many bytes a field of the kind takes, where the kind alone tells it. -/
def width? : FieldKind → Option Nat
  | u8 => some 1
  | u16 => some 2
  | u32 => some 4
  | u64 => some 8
  | bytes n => some n
  | compactSize => none
  | varBytes => none

/-- The bytes in which a field of a kind is found. -/
inductive Finds : FieldKind → Field → Bytes → Prop
  | fixed (f : Field) (width : f.kind.width?.isSome) : Finds f.kind f f.encode
  | compactSize (form : Form) : Finds compactSize (.compactSize form.value) form.bytes
  | varBytes (c : Counted UInt8) : Finds varBytes (.varBytes c.items) c.script

/-- The bytes that a read of a kind has passed when it wants so many bytes at once. -/
inductive Wants : FieldKind → Bytes → Nat → Prop
  | fixed (kind : FieldKind) (n : Nat) (width : kind.width? = some n) : Wants kind [] n
  | marker : Wants compactSize [] 1
  | digits (marker : UInt8) (width : Nat)
      (form : (marker, width) ∈ [(0xfd, 2), (0xfe, 4), (0xff, 8)]) :
      Wants compactSize [marker] width
  | count (passed : Bytes) (n : Nat) (wants : Wants compactSize passed n) : Wants varBytes passed n
  | content (count : Form) : Wants varBytes count.bytes count.value.toNat

/-- What comes of a read, the bytes that it passes and the bytes that it leaves. -/
inductive Reads (kind : FieldKind) : Except CodecError Field → Bytes → Bytes → Prop
  | found (f : Field) (passed rest : Bytes) (finds : kind.Finds f passed) :
      Reads kind (.ok f) passed rest
  | short (passed rest : Bytes) (n : Nat) (wants : kind.Wants passed n) (short : rest.length < n) :
      Reads kind (.error (.endOfData n rest.length)) passed rest

variable {kind : FieldKind} {unread rest : Bytes} {e : CodecError} {f : Field}

/-! ## One read -/

theorem finds_of_spans {κ α : Type} {r : Read CodecError α} {bytes : κ → Bytes} {value : κ → α}
    {make : α → Field} (hspans : r.Spans bytes value)
    (hfinds : ∀ l, kind.Finds (make (value l)) (bytes l))
    (h : (make <$> r) unread = (.ok f, rest)) :
    ∃ passed, unread = passed ++ rest ∧ kind.Finds f passed := by
  obtain ⟨_, hread, rfl⟩ := Read.map_eq_ok_iff.1 h
  obtain ⟨l, rfl, rfl⟩ := hspans.iff.1 hread
  exact ⟨bytes l, rfl, hfinds l⟩

theorem finds_of_read (h : kind.read unread = (.ok f, rest)) :
    ∃ passed, unread = passed ++ rest ∧ kind.Finds f passed := by
  cases kind with
  | u8 => exact finds_of_spans Read.spans_u8 (fun v => .fixed (.u8 v) rfl) h
  | u16 => exact finds_of_spans Read.spans_u16 (fun v => .fixed (.u16 v) rfl) h
  | u32 => exact finds_of_spans Read.spans_u32 (fun v => .fixed (.u32 v) rfl) h
  | u64 => exact finds_of_spans Read.spans_u64 (fun v => .fixed (.u64 v) rfl) h
  | compactSize => exact finds_of_spans Read.spans_compactSize .compactSize h
  | varBytes => exact finds_of_spans Read.spans_varBytes .varBytes h
  | bytes n =>
      obtain ⟨bs, hread, rfl⟩ := Read.map_eq_ok_iff.1 h
      obtain ⟨rfl, rfl⟩ := Read.bytes_eq_ok_iff.1 hread
      exact ⟨bs, rfl, .fixed (.bytes bs) rfl⟩

/-- A read of a fixed width that fails passes nothing. -/
theorem fixed_of_read {n : Nat} (hwidth : kind.width? = some n)
    (h : kind.read unread = (.error e, rest)) :
    unread.length < n ∧ e = .endOfData n unread.length ∧ rest = unread := by
  cases kind with
  | u8 | u16 | u32 | u64 =>
      cases hwidth
      exact Read.little_eq_error_iff.1 (Read.map_eq_error_iff.1 h)
  | bytes n =>
      cases hwidth
      exact Read.bytes_eq_error_iff.1 (Read.map_eq_error_iff.1 h)
  | compactSize | varBytes => cases hwidth

/-- A read of a compact-size integer that fails passes its marker at most. -/
theorem wants_of_compactSize (h : Read.compactSize unread = (.error e, rest)) :
    ∃ passed n, compactSize.Wants passed n ∧ unread = passed ++ rest ∧ rest.length < n ∧
      e = .endOfData n rest.length := by
  rcases Read.bind_eq_error_iff.1 h with h | ⟨marker, middle, hmarker, hdigits⟩
  · obtain ⟨hshort, rfl, rfl⟩ := Read.little_eq_error_iff.1 h
    exact ⟨[], 1, .marker, rfl, hshort, rfl⟩
  · have hunread : unread = marker :: middle := by
      obtain ⟨byte, hbyte, hunread⟩ := Read.spans_u8.iff.1 hmarker
      rw [hunread, ← hbyte]
      rfl
    -- the three markers differ in the width of the number behind them only
    have hwants {width : Nat} (hform : (marker, width) ∈ [(0xfd, 2), (0xfe, 4), (0xff, 8)])
        (hread : middle.length < width ∧ e = .endOfData width middle.length ∧ rest = middle) :
        ∃ passed n, compactSize.Wants passed n ∧ unread = passed ++ rest ∧ rest.length < n ∧
          e = .endOfData n rest.length := by
      obtain ⟨hshort, rfl, rfl⟩ := hread
      exact ⟨[marker], width, .digits marker width hform, hunread, hshort, rfl⟩
    split at hdigits
    · next hff => exact hwants (by simp [hff]) (Read.little_eq_error_iff.1 hdigits)
    split at hdigits
    · next hfe =>
        exact hwants (by simp [hfe])
          (Read.little_eq_error_iff.1 (Read.map_eq_error_iff.1 hdigits))
    split at hdigits
    · next hfd =>
        exact hwants (by simp [hfd])
          (Read.little_eq_error_iff.1 (Read.map_eq_error_iff.1 hdigits))
    · cases hdigits

theorem wants_of_varBytes (h : Read.varBytes unread = (.error e, rest)) :
    ∃ passed n, varBytes.Wants passed n ∧ unread = passed ++ rest ∧ rest.length < n ∧
      e = .endOfData n rest.length := by
  rcases Read.bind_eq_error_iff.1 h with hcount | ⟨_, middle, hcount, hcontent⟩
  · obtain ⟨passed, n, hwants, hsplit⟩ := wants_of_compactSize hcount
    exact ⟨passed, n, .count passed n hwants, hsplit⟩
  · obtain ⟨count, rfl, rfl⟩ := Read.spans_compactSize.iff.1 hcount
    obtain ⟨hshort, rfl, rfl⟩ := Read.bytes_eq_error_iff.1 hcontent
    exact ⟨count.bytes, count.value.toNat, .content count, rfl, hshort, rfl⟩

theorem wants_of_read (h : kind.read unread = (.error e, rest)) :
    ∃ passed n, kind.Wants passed n ∧ unread = passed ++ rest ∧ rest.length < n ∧
      e = .endOfData n rest.length := by
  cases hwidth : kind.width? with
  | some n =>
      obtain ⟨hshort, rfl, rfl⟩ := fixed_of_read hwidth h
      exact ⟨[], n, .fixed kind n hwidth, rfl, hshort, rfl⟩
  | none =>
      cases kind with
      | compactSize => exact wants_of_compactSize (Read.map_eq_error_iff.1 h)
      | varBytes => exact wants_of_varBytes (Read.map_eq_error_iff.1 h)
      | _ => cases hwidth

/-- Every read finds a field in what it passes or passes what stands in front of the bytes that it
lacks. -/
theorem exists_reads (kind : FieldKind) (unread : Bytes) :
    ∃ passed, unread = passed ++ (kind.read unread).2 ∧
      kind.Reads (kind.read unread).1 passed (kind.read unread).2 := by
  cases hread : kind.read unread with
  | mk result rest =>
      cases result with
      | ok f =>
          obtain ⟨passed, hsplit, hfinds⟩ := finds_of_read hread
          exact ⟨passed, hsplit, .found f passed rest hfinds⟩
      | error e =>
          obtain ⟨passed, n, hwants, hsplit, hshort, rfl⟩ := wants_of_read hread
          exact ⟨passed, hsplit, .short passed rest n hwants hshort⟩

end FieldKind

namespace Cursor

variable {data before unread : Bytes} {kinds : List FieldKind} {parts : List Bytes}
  {entries : List Entry}

/-! ## One after the other -/

/-- Reads in a row, from behind some bytes of the data and in front of the others. Each of them
passes a part, and its entry has the position behind all that has been passed by then. -/
inductive Session (data : Bytes) :
    Bytes → Bytes → List FieldKind → List Bytes → List Entry → Prop
  | nil (before unread : Bytes) : Session data before unread [] [] []
  | cons {kind : FieldKind} {result : Except CodecError Field} {before part rest : Bytes}
      {kinds : List FieldKind} {parts : List Bytes} {entries : List Entry}
      (head : kind.Reads result part rest)
      (tail : Session data (before ++ part) rest kinds parts entries) :
      Session data before (part ++ rest) (kind :: kinds) (part :: parts)
        ((result.mapError .fault, ⟨data, (before ++ part).length⟩) :: entries)

/-- One read in place, in front of some bytes. -/
theorem walk_reads (kind : FieldKind) (hfits : (before ++ unread).length < UInt64.size) :
    ∃ part, unread = part ++ (kind.read unread).2 ∧
      kind.Reads (kind.read unread).1 part (kind.read unread).2 ∧
      kind.walk.run ⟨before ++ unread, before.length⟩ =
        ((kind.read unread).1.mapError .fault, ⟨before ++ unread, (before ++ part).length⟩) := by
  obtain ⟨part, hsplit, hreads⟩ := kind.exists_reads unread
  obtain ⟨taken, htaken, hresult, hcursor⟩ :=
    Walk.follows_field kind _ before unread rfl hfits
  have hsame : taken = part := List.append_cancel_right (htaken.symm.trans hsplit)
  subst hsame
  exact ⟨taken, hsplit, hreads, Prod.ext hresult hcursor⟩

theorem exists_session (hfits : data.length < UInt64.size) (hdata : data = before ++ unread) :
    ∃ parts, Session data before unread kinds parts (readAll kinds ⟨data, before.length⟩) := by
  induction kinds generalizing before unread with
  | nil => exact ⟨[], .nil before unread⟩
  | cons kind kinds ih =>
      subst hdata
      obtain ⟨part, hsplit, hreads, hrun⟩ := walk_reads kind hfits
      generalize kind.read unread = step at hsplit hreads hrun
      obtain ⟨result, rest⟩ := step
      dsimp only at hsplit hreads hrun
      subst hsplit
      obtain ⟨parts, htail⟩ := ih (List.append_assoc before part rest).symm
      rw [readAll, hrun]
      exact ⟨part :: parts, .cons hreads htail⟩

namespace Session

theorem data_eq (h : Session data before unread kinds parts entries) :
    ∀ e ∈ entries, e.2.data = data := by
  induction h with
  | nil => nofun
  | cons head tail ih =>
      intro e he
      rcases List.mem_cons.1 he with rfl | he
      · rfl
      · exact ih e he

/-- The parts are what stands between the position in front of the session and that behind it. -/
theorem passed (h : Session data before unread kinds parts entries)
    (hdata : data = before ++ unread) {n : Nat} {e : Entry} (he : entries[n]? = some e) :
    e.2.position = (before ++ (parts.take (n + 1)).flatten).length ∧
      before ++ (parts.take (n + 1)).flatten <+: data := by
  induction h generalizing n with
  | nil => cases he
  | @cons kind result before part rest kinds parts entries head tail ih =>
      cases n with
      | zero =>
          rw [List.getElem?_cons_zero, Option.some_inj] at he
          subst he
          simp [hdata]
      | succ n =>
          have h := ih (by rw [hdata, List.append_assoc]) he
          rwa [List.take_succ_cons, List.flatten_cons, ← List.append_assoc]

/-- The position does not move back. -/
theorem forward (h : Session data before unread kinds parts entries) :
    (∀ e ∈ entries, before.length ≤ e.2.position) ∧
      entries.Pairwise fun e e' => e.2.position ≤ e'.2.position := by
  induction h with
  | nil => exact ⟨nofun, .nil⟩
  | @cons kind result before part rest kinds parts entries head tail ih =>
      obtain ⟨hbehind, hpairwise⟩ := ih
      refine ⟨?_, .cons hbehind hpairwise⟩
      intro e he
      have hpart : before.length ≤ (before ++ part).length := by simp
      rcases List.mem_cons.1 he with rfl | he
      · exact hpart
      · exact Nat.le_trans hpart (hbehind e he)

end Session

/-- In place the same is read as off the front, and as many bytes are left. -/
theorem readAll_eq (hfits : data.length < UInt64.size) (hdata : data = before ++ unread) :
    (readAll kinds ⟨data, before.length⟩).map (fun e => (e.1, data.length - e.2.position)) =
      (FieldKind.readAll kinds unread).map fun r => (r.1.mapError .fault, r.2) := by
  induction kinds generalizing before unread with
  | nil => rfl
  | cons kind kinds ih =>
      subst hdata
      obtain ⟨part, hsplit, -, hrun⟩ := walk_reads kind hfits
      have hdata : before ++ unread = before ++ part ++ (kind.read unread).2 := by
        rw [List.append_assoc, ← hsplit]
      have hleft : (before ++ unread).length - (before ++ part).length =
          (kind.read unread).2.length := by
        rw [hdata, List.length_append, Nat.add_sub_cancel_left]
      rw [readAll, FieldKind.readAll, hrun]
      simp only [List.map_cons, hleft, ih hdata]

theorem results_eq (hfits : data.length < UInt64.size) (hdata : data = before ++ unread) :
    (readAll kinds ⟨data, before.length⟩).map Prod.fst =
      ((FieldKind.readAll kinds unread).map Prod.fst).map (·.mapError .fault) := by
  have hsame := congrArg (List.map Prod.fst) (@readAll_eq data before unread kinds hfits hdata)
  simpa only [List.map_map, Function.comp_def] using hsame

/-- What holds of reads in a row from the first byte on, failed or not: each one finds a field or
lacks some bytes, the position stands behind all parts that have been passed by then, never beyond
the end and never further back than before, and the bytes behind it can be counted. -/
structure Orderly (data : Bytes) (kinds : List FieldKind) (parts : List Bytes)
    (entries : List Entry) : Prop where
  session : Session data [] data kinds parts entries
  passed : ∀ n e, entries[n]? = some e → data.take e.2.position = (parts.take (n + 1)).flatten
  inside : ∀ e ∈ entries, e.2.data = data ∧ e.2.position ≤ data.length
  remaining : ∀ e ∈ entries,
    (Walk.remaining (ε := CodecError)).run e.2 = (.ok (data.length - e.2.position), e.2)
  shrinking : entries.Pairwise fun e e' =>
    data.length - e'.2.position ≤ data.length - e.2.position

theorem Session.isOrderly (h : Session data [] data kinds parts entries) :
    Orderly data kinds parts entries := by
  have hpassed {n : Nat} {e : Entry} (he : entries[n]? = some e) :
      e.2.position = (parts.take (n + 1)).flatten.length ∧ (parts.take (n + 1)).flatten <+: data :=
    h.passed rfl he
  have hinside : ∀ e ∈ entries, e.2.data = data ∧ e.2.position ≤ data.length := by
    intro e he
    obtain ⟨n, hn⟩ := List.getElem?_of_mem he
    obtain ⟨hposition, hprefix⟩ := hpassed hn
    exact ⟨h.data_eq e he, hposition ▸ hprefix.length_le⟩
  refine ⟨h, ?_, hinside, ?_, ?_⟩
  · intro n e he
    obtain ⟨hposition, hprefix⟩ := hpassed he
    rw [hposition]
    exact (List.prefix_iff_eq_take.1 hprefix).symm
  · intro e he
    obtain ⟨hdata, hle⟩ := hinside e he
    rw [Walk.remaining, Walk.run_bind, Walk.run_get]
    dsimp only
    rw [hdata, Walk.difference, if_pos hle]
    rfl
  · exact h.forward.2.imp fun hle => Nat.sub_le_sub_left hle _

/-- Whatever is read in a row, and wherever it fails, the reads are orderly: no sum, difference or
slice of theirs leaves its range, and they read the same as off the front. -/
theorem readAll_orderly {data : Bytes} (h : data.length < UInt64.size) (kinds : List FieldKind) :
    (∃ parts, Orderly data kinds parts (readAll kinds (start data))) ∧
      (readAll kinds (start data)).map (fun e => (e.1, data.length - e.2.position)) =
        (FieldKind.readAll kinds data).map fun r => (r.1.mapError .fault, r.2) := by
  have hdata : data = [] ++ data := rfl
  obtain ⟨parts, hsession⟩ := exists_session h hdata
  exact ⟨⟨parts, hsession.isOrderly⟩, readAll_eq h hdata⟩

/-- A string, a count that breaks off behind its marker, a byte that is still there, and a number
and a string that are not. -/
theorem readAll_orderly_broken :
    let data : Bytes := [2, 7, 8, 0xfe, 9]
    let kinds : List FieldKind := [.varBytes, .compactSize, .u8, .u32, .bytes 18446744073709551615]
    data.length < UInt64.size ∧
      readAll kinds (start data) =
        [(.ok (.varBytes [7, 8]), ⟨data, 3⟩), (.error (.fault (.endOfData 4 1)), ⟨data, 4⟩),
          (.ok (.u8 9), ⟨data, 5⟩), (.error (.fault (.endOfData 4 0)), ⟨data, 5⟩),
          (.error (.fault (.endOfData 18446744073709551615 0)), ⟨data, 5⟩)] ∧
      ∃ parts, Orderly data kinds parts (readAll kinds (start data)) :=
  ⟨by decide, by rfl, (readAll_orderly (by decide) _).1⟩

end Cursor

end CashWallet
