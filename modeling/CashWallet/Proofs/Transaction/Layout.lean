import CashWallet.Proofs.Bytes.Layout
import CashWallet.Proofs.Transaction.WireForm
import CashWallet.Transaction.Layout
import Mathlib.Algebra.Order.Ring.Nat

/-!
# Transactions are re-encoded canonically

What is read as a transaction is the bytes of exactly one layout. Written again, the transaction is
the same layout with every count in its shortest form: no longer than what was read, read as the
same transaction, and equal to what was read exactly if all counts were in their shortest forms.
-/

namespace CashWallet

open CompactSize (Form)
open Read (bind_eq_ok_iff mapError_eq_ok_iff pure_eq_ok_iff)

/-! ## What is read -/

theorem Outpoint.spans_read : Outpoint.read.Spans Outpoint.encode id := by
  apply Read.spans_of_takes Outpoint.takes_encode
  intro unread rest o h
  simp only [Outpoint.read, bind_eq_ok_iff, mapError_eq_ok_iff, Read.bytes_eq_ok_iff,
    Read.spans_u32.iff] at h
  obtain ⟨bs, _, ⟨hlength, rfl⟩, _, _, ⟨index, rfl, rfl⟩, h⟩ := h
  rw [TxId.ofBytes, dif_pos hlength] at h
  obtain ⟨rfl, rfl⟩ := pure_eq_ok_iff.1 h
  exact ⟨_, rfl, by rw [encode, List.append_assoc]; rfl⟩

theorem Input.spans_read : Input.read.Spans InputLayout.bytes InputLayout.input := by
  intro unread rest i
  simp only [Input.read, bind_eq_ok_iff, mapError_eq_ok_iff, pure_eq_ok_iff,
    Outpoint.spans_read.iff, Read.spans_varBytes.iff, Read.spans_u32.iff]
  constructor
  · rintro ⟨_, _, ⟨outpoint, rfl, rfl⟩, _, _, ⟨script, rfl, rfl⟩, _, _, ⟨sequence, rfl, rfl⟩, rfl,
      rfl⟩
    exact ⟨⟨outpoint, script, sequence⟩, rfl, by simp only [InputLayout.bytes, List.append_assoc]⟩
  · rintro ⟨⟨outpoint, script, sequence⟩, rfl, rfl⟩
    simp only [InputLayout.bytes, List.append_assoc]
    exact ⟨_, _, ⟨outpoint, rfl, rfl⟩, _, _, ⟨script, rfl, rfl⟩, _, _, ⟨sequence, rfl, rfl⟩, rfl,
      rfl⟩

theorem Output.spans_read : Output.read.Spans OutputLayout.bytes OutputLayout.output := by
  intro unread rest o
  simp only [Output.read, bind_eq_ok_iff, mapError_eq_ok_iff, pure_eq_ok_iff,
    Read.spans_u64.iff, Read.spans_varBytes.iff]
  constructor
  · rintro ⟨_, _, ⟨value, rfl, rfl⟩, _, _, ⟨script, rfl, rfl⟩, rfl, rfl⟩
    exact ⟨⟨value, script⟩, rfl, by simp only [OutputLayout.bytes, List.append_assoc]⟩
  · rintro ⟨⟨value, script⟩, rfl, rfl⟩
    simp only [OutputLayout.bytes, List.append_assoc]
    exact ⟨_, _, ⟨value, rfl, rfl⟩, _, _, ⟨script, rfl, rfl⟩, rfl, rfl⟩

namespace Transaction

theorem spans_read : Transaction.read.Spans TransactionLayout.bytes
    TransactionLayout.transaction := by
  intro unread rest tx
  simp only [Transaction.read, bind_eq_ok_iff, mapError_eq_ok_iff, pure_eq_ok_iff,
    Read.spans_u32.iff, Read.spans_compactSize.iff, Input.spans_read.times,
    Output.spans_read.times]
  constructor
  · rintro ⟨_, _, ⟨version, rfl, rfl⟩, _, _, ⟨inputCount, rfl, rfl⟩, _, _,
      ⟨inputs, hinputs, rfl, rfl⟩, _, _, ⟨outputCount, rfl, rfl⟩, _, _,
      ⟨outputs, houtputs, rfl, rfl⟩, _, _, ⟨lockTime, rfl, rfl⟩, rfl, rfl⟩
    refine ⟨⟨version, ⟨inputCount, inputs, hinputs⟩, ⟨outputCount, outputs, houtputs⟩, lockTime⟩,
      rfl, ?_⟩
    simp only [TransactionLayout.bytes, Counted.bytes, List.append_assoc]
  · rintro ⟨⟨version, ⟨inputCount, inputs, hinputs⟩, ⟨outputCount, outputs, houtputs⟩, lockTime⟩,
      rfl, rfl⟩
    simp only [TransactionLayout.bytes, Counted.bytes, List.append_assoc]
    exact ⟨_, _, ⟨version, rfl, rfl⟩, _, _, ⟨inputCount, rfl, rfl⟩, _, _,
      ⟨inputs, hinputs, rfl, rfl⟩, _, _, ⟨outputCount, rfl, rfl⟩, _, _,
      ⟨outputs, houtputs, rfl, rfl⟩, _, _, ⟨lockTime, rfl, rfl⟩, rfl, rfl⟩

/-- The byte strings that are read as a transaction are those of its layouts. -/
theorem ofBytes_eq_ok_iff {bs : Bytes} {tx : Transaction} :
    ofBytes bs = .ok tx ↔ ∃ l : TransactionLayout, l.transaction = tx ∧ l.bytes = bs := by
  have hwhole : ofBytes bs = .ok tx ↔ read bs = (.ok tx, []) := by
    unfold ofBytes
    constructor
    · intro h
      split at h
      · next rest hread =>
          split at h
          · next hrest =>
              cases h
              rw [hread, List.isEmpty_iff.1 hrest]
          · cases h
      · cases h
    · intro h
      rw [h]
      rfl
  simp only [hwhole, spans_read.iff, List.append_nil, eq_comm]

end Transaction

/-! ## One layout for one byte string -/

theorem InputLayout.delimits : Delimits InputLayout.bytes := by
  rintro ⟨outpoint, script, sequence⟩ ⟨outpoint', script', sequence'⟩ s s' heq
  simp only [bytes, List.append_assoc] at heq
  obtain ⟨rfl, hscript⟩ := outpoint.takes_encode.selfDelimiting outpoint'.takes_encode heq
  obtain ⟨rfl, hsequence⟩ := delimits_script _ _ _ _ hscript
  obtain ⟨rfl, hrest⟩ :=
    (Read.takes_u32 sequence).selfDelimiting (Read.takes_u32 sequence') hsequence
  exact ⟨rfl, hrest⟩

theorem OutputLayout.delimits : Delimits OutputLayout.bytes := by
  rintro ⟨value, script⟩ ⟨value', script'⟩ s s' heq
  simp only [bytes, List.append_assoc] at heq
  obtain ⟨rfl, hscript⟩ := (Read.takes_u64 value).selfDelimiting (Read.takes_u64 value') heq
  obtain ⟨rfl, hrest⟩ := delimits_script _ _ _ _ hscript
  exact ⟨rfl, hrest⟩

namespace TransactionLayout

theorem delimits : Delimits TransactionLayout.bytes := by
  rintro ⟨version, inputs, outputs, lockTime⟩ ⟨version', inputs', outputs', lockTime'⟩ s s' heq
  simp only [bytes, List.append_assoc] at heq
  obtain ⟨rfl, hinputs⟩ := (Read.takes_u32 version).selfDelimiting (Read.takes_u32 version') heq
  obtain ⟨rfl, houtputs⟩ := InputLayout.delimits.counted _ _ _ _ hinputs
  obtain ⟨rfl, hlockTime⟩ := OutputLayout.delimits.counted _ _ _ _ houtputs
  obtain ⟨rfl, hrest⟩ :=
    (Read.takes_u32 lockTime).selfDelimiting (Read.takes_u32 lockTime') hlockTime
  exact ⟨rfl, hrest⟩

theorem bytes_inj {l l' : TransactionLayout} (h : l.bytes = l'.bytes) : l = l' :=
  (delimits l l' [] [] (congrArg (· ++ []) h)).1

end TransactionLayout

/-! ## Shortest counts -/

namespace Counted

variable {α β : Type}

theorem ofNat_length (c : Counted α) : UInt64.ofNat c.items.length = c.count.value := by
  rw [c.counted, UInt64.ofNat_toNat]

theorem bytes_shortened (encode : α → Bytes) (c : Counted α) :
    c.shortened.bytes encode =
      CompactSize.encode (UInt64.ofNat c.items.length) ++ c.items.flatMap encode := by
  rw [bytes, shortened, Form.bytes_shortest, ofNat_length]

theorem script_shortened (c : Counted UInt8) :
    c.shortened.script = Field.encodeVarBytes c.items := by
  rw [script, bytes_shortened, List.flatMap_singleton', Field.encodeVarBytes]

theorem shortened_eq {c : Counted α} (h : c.count.IsShortest) : c.shortened = c := by
  obtain ⟨count, items, counted⟩ := c
  simp only [shortened, mk.injEq, and_true]
  exact h.eq_shortest.symm

theorem map_eq_self {c : Counted α} {f : α → α} (h : ∀ a ∈ c.items, f a = a) : c.map f = c := by
  obtain ⟨count, items, counted⟩ := c
  simp only [map, mk.injEq, true_and]
  exact (List.map_congr_left h).trans (List.map_id' items)

end Counted

theorem InputLayout.bytes_shortened (l : InputLayout) : l.shortened.bytes = l.input.encode := by
  simp only [bytes, shortened, Counted.script_shortened, input, Input.encode]

theorem OutputLayout.bytes_shortened (l : OutputLayout) : l.shortened.bytes = l.output.encode := by
  simp only [bytes, shortened, Counted.script_shortened, output, Output.encode]

namespace TransactionLayout

variable {l : TransactionLayout}

/-- A transaction is written as its layout with every count in the shortest form. -/
theorem bytes_shortened (l : TransactionLayout) : l.shortened.bytes = l.transaction.encode := by
  have hinputs : (l.inputs.items.map InputLayout.shortened).flatMap InputLayout.bytes =
      (l.inputs.items.map InputLayout.input).flatMap Input.encode := by
    simp only [List.flatMap_map, InputLayout.bytes_shortened]
  have houtputs : (l.outputs.items.map OutputLayout.shortened).flatMap OutputLayout.bytes =
      (l.outputs.items.map OutputLayout.output).flatMap Output.encode := by
    simp only [List.flatMap_map, OutputLayout.bytes_shortened]
  simp only [bytes, shortened, Counted.bytes_shortened, Counted.map, hinputs, houtputs, transaction,
    Transaction.encode, List.length_map, List.append_assoc]

theorem transaction_shortened (l : TransactionLayout) :
    l.shortened.transaction = l.transaction := by
  simp only [transaction, shortened, Counted.shortened, Counted.map, List.map_map]
  rfl

/-- Only counts that are not shortest are written otherwise. -/
theorem shortened_eq (h : ∀ f ∈ l.counts, f.IsShortest) : l.shortened = l := by
  simp only [counts, List.cons_append, List.forall_mem_cons, List.forall_mem_append,
    List.forall_mem_map] at h
  obtain ⟨hinputCount, hinputs, houtputCount, houtputs⟩ := h
  have hinputItems : l.inputs.map InputLayout.shortened = l.inputs := by
    apply Counted.map_eq_self
    intro i hi
    rw [InputLayout.shortened, Counted.shortened_eq (hinputs i hi)]
  have houtputItems : l.outputs.map OutputLayout.shortened = l.outputs := by
    apply Counted.map_eq_self
    intro o ho
    rw [OutputLayout.shortened, Counted.shortened_eq (houtputs o ho)]
  rw [shortened, hinputItems, houtputItems, Counted.shortened_eq hinputCount,
    Counted.shortened_eq houtputCount]

end TransactionLayout

/-! ## Lengths -/

section

variable {κ α : Type}

/-- What the layouts of a list take beyond their written forms adds up. -/
theorem length_flatMap_of_excess {bytes : κ → Bytes} {value : κ → α} {encode : α → Bytes}
    {excess : κ → Nat} (h : ∀ l, (bytes l).length = (encode (value l)).length + excess l)
    (ls : List κ) :
    (ls.flatMap bytes).length = ((ls.map value).flatMap encode).length + (ls.map excess).sum := by
  induction ls with
  | nil => rfl
  | cons l ls ih =>
      simp only [List.flatMap_cons, List.map_cons, List.length_append, List.sum_cons, h, ih]
      omega

theorem Counted.length_bytes (encode : α → Bytes) (c : Counted α) :
    (c.bytes encode).length = (c.shortened.bytes encode).length + c.count.excess := by
  simp only [bytes, shortened, List.length_append, Form.bytes_shortest, Form.length_bytes,
    CompactSize.length_encode]
  omega

end

theorem InputLayout.length_bytes (l : InputLayout) :
    l.bytes.length = l.input.encode.length + l.script.count.excess := by
  rw [← bytes_shortened]
  simp only [bytes, shortened, List.length_append, Counted.script, Counted.length_bytes _ l.script]
  omega

theorem OutputLayout.length_bytes (l : OutputLayout) :
    l.bytes.length = l.output.encode.length + l.script.count.excess := by
  rw [← bytes_shortened]
  simp only [bytes, shortened, List.length_append, Counted.script, Counted.length_bytes _ l.script]
  omega

/-- A layout is longer than the written form by what its counts take beyond their shortest forms. -/
theorem TransactionLayout.length_bytes (l : TransactionLayout) :
    l.bytes.length = l.transaction.encode.length + (l.counts.map Form.excess).sum := by
  have hinputs := length_flatMap_of_excess InputLayout.length_bytes l.inputs.items
  have houtputs := length_flatMap_of_excess OutputLayout.length_bytes l.outputs.items
  simp only [bytes, transaction, Transaction.encode, counts, Counted.bytes, List.length_append,
    List.length_map, Form.length_bytes, CompactSize.length_encode, Counted.ofNat_length, hinputs,
    houtputs, List.map_append, List.map_cons, List.map_map, List.sum_append, List.sum_cons]
  simp only [Function.comp_def]
  omega

namespace Transaction

/-- What is read as a transaction is the bytes of one layout only. The transaction is written again
as that layout with all counts in their shortest forms. So it is written no longer, is read as the
same transaction, and is written with the same bytes, or as many, exactly if all counts were in
their shortest forms; its id is then the digest of what was read. -/
theorem reencoding_canonical {bs : Bytes} {tx : Transaction} (h : ofBytes bs = .ok tx) :
    ∃ l : TransactionLayout, l.bytes = bs ∧ (∀ l' : TransactionLayout, l'.bytes = bs → l' = l) ∧
      l.transaction = tx ∧ l.shortened.bytes = tx.encode ∧
      tx.encode.length ≤ bs.length ∧ ofBytes tx.encode = .ok tx ∧
      (tx.encode = bs ↔ ∀ f ∈ l.counts, f.IsShortest) ∧
      (tx.encode.length = bs.length ↔ ∀ f ∈ l.counts, f.IsShortest) ∧
      ((∀ f ∈ l.counts, f.IsShortest) → tx.id.bytes = Hash.sha256d bs) := by
  obtain ⟨l, rfl, rfl⟩ := ofBytes_eq_ok_iff.1 h
  have hlength := l.length_bytes
  have hexcess : (l.counts.map Form.excess).sum = 0 ↔ ∀ f ∈ l.counts, f.IsShortest := by
    simp only [List.sum_eq_zero_iff_forall_eq_nat, List.forall_mem_map, Form.isShortest_iff_excess]
  have hsame (hall : ∀ f ∈ l.counts, f.IsShortest) : l.transaction.encode = l.bytes := by
    rw [← l.bytes_shortened, TransactionLayout.shortened_eq hall]
  refine ⟨l, rfl, fun l' => TransactionLayout.bytes_inj, rfl, l.bytes_shortened, by omega, ?_, ?_,
    ?_, ?_⟩
  · exact ofBytes_eq_ok_iff.2 ⟨l.shortened, l.transaction_shortened, l.bytes_shortened⟩
  · constructor
    · intro heq
      rw [heq] at hlength
      exact hexcess.1 (by omega)
    · exact hsame
  · rw [← hexcess]
    omega
  · intro hall
    rw [id, TxId.ofData, hsame hall]

/-- A layout that has a count in too long a form at each place where one can stand. -/
def padded : TransactionLayout where
  version := 1
  inputs := ⟨.three 1, [⟨⟨.zero, 2⟩, ⟨.five 1, [0x51], rfl⟩, 7⟩], rfl⟩
  outputs := ⟨.nine 1, [⟨5, ⟨.three 0, [], rfl⟩⟩], rfl⟩
  lockTime := 3

theorem reencoding_canonical_padded :
    ofBytes padded.bytes = .ok padded.transaction ∧
      padded.transaction.encode ≠ padded.bytes ∧
      padded.transaction.encode.length < padded.bytes.length ∧
      ofBytes padded.transaction.encode = .ok padded.transaction := by
  have h : ofBytes padded.bytes = .ok padded.transaction := by rfl
  obtain ⟨l, -, hunique, -, -, hle, hback, hsame, hlength, -⟩ := reencoding_canonical h
  have hlong : ¬ ∀ f ∈ l.counts, f.IsShortest := by
    rw [← hunique padded rfl]
    intro hall
    have hcount := (Form.isShortest_iff_excess _).1 (hall (.three 1) List.mem_cons_self)
    exact absurd hcount (by decide)
  exact ⟨h, mt hsame.1 hlong, Nat.lt_of_le_of_ne hle (mt hlength.1 hlong), hback⟩

end Transaction

end CashWallet
