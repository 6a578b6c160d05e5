import CashWallet.Proofs.Bytes.ReadBack
import CashWallet.Transaction.Basic

/-!
# The wire form of transactions

The written form of a transaction is read back whatever follows it, so it delimits itself: no
written form is a proper part of another, and reading exactly one transaction fails on every proper
part and on every proper extension of a written form.
-/

namespace CashWallet

/-- The counts of the wire form are numbers of 64 bits, those of the scripts included. -/
structure Transaction.Countable (tx : Transaction) : Prop where
  inputs : tx.inputs.length < UInt64.size
  outputs : tx.outputs.length < UInt64.size
  inputScripts : ∀ i ∈ tx.inputs, i.script.bytes.length < UInt64.size
  outputScripts : ∀ o ∈ tx.outputs, o.script.bytes.length < UInt64.size

theorem TxId.ofBytes_bytes (id : TxId) : TxId.ofBytes id.bytes = .ok id := by
  rw [TxId.ofBytes, dif_pos id.length_bytes]

namespace Outpoint

theorem takes_encode (o : Outpoint) : Outpoint.read.Takes o.encode o := by
  have htxid := (Read.takes_bytes o.txid.bytes).mapError TransactionError.codec
  rw [o.txid.length_bytes] at htxid
  have hindex := (Read.takes_u32 o.index).mapError TransactionError.codec
  intro rest
  simp only [Outpoint.read, encode, Read.bind_run, List.append_assoc, htxid _, hindex _,
    TxId.ofBytes_bytes, Read.pure_run]

theorem local_read : Outpoint.read.Local := by
  apply ((Read.local_bytes 32).mapError _).bind
  intro bs
  apply (Read.local_u32.mapError _).bind
  intro index
  split
  · exact Read.local_pure _
  · exact Read.local_fail _

end Outpoint

namespace Input

theorem takes_encode {i : Input} (h : i.script.bytes.length < UInt64.size) :
    Input.read.Takes i.encode i := by
  have hscript := (Read.takes_varBytes h).mapError TransactionError.codec
  have hsequence := (Read.takes_u32 i.sequence).mapError TransactionError.codec
  intro rest
  simp only [Input.read, encode, Read.bind_run, List.append_assoc, i.outpoint.takes_encode _,
    hscript _, hsequence _, Read.pure_run]

theorem local_read : Input.read.Local :=
  Outpoint.local_read.bind fun _ => (Read.local_varBytes.mapError _).bind fun _ =>
    (Read.local_u32.mapError _).bind fun _ => Read.local_pure _

end Input

namespace Output

theorem takes_encode {o : Output} (h : o.script.bytes.length < UInt64.size) :
    Output.read.Takes o.encode o := by
  have hvalue := (Read.takes_u64 o.value).mapError TransactionError.codec
  have hscript := (Read.takes_varBytes h).mapError TransactionError.codec
  intro rest
  simp only [Output.read, encode, Read.bind_run, List.append_assoc, hvalue _, hscript _,
    Read.pure_run]

theorem local_read : Output.read.Local :=
  (Read.local_u64.mapError _).bind fun _ => (Read.local_varBytes.mapError _).bind fun _ =>
    Read.local_pure _

end Output

namespace Transaction

/-- A written transaction is read back with whatever follows it left unread. -/
theorem takes_encode {tx : Transaction} (h : tx.Countable) :
    Transaction.read.Takes tx.encode tx := by
  have hversion := (Read.takes_u32 tx.version).mapError TransactionError.version
  have hlockTime := (Read.takes_u32 tx.lockTime).mapError TransactionError.lockTime
  have hinputCount :=
    (Read.takes_compactSize (UInt64.ofNat tx.inputs.length)).mapError TransactionError.codec
  have houtputCount :=
    (Read.takes_compactSize (UInt64.ofNat tx.outputs.length)).mapError TransactionError.codec
  have hinputs : (Input.read.times tx.inputs.length).Takes (tx.inputs.flatMap Input.encode) _ :=
    Read.Takes.times fun i hi => Input.takes_encode (h.inputScripts i hi)
  have houtputs : (Output.read.times tx.outputs.length).Takes (tx.outputs.flatMap Output.encode) _ :=
    Read.Takes.times fun o ho => Output.takes_encode (h.outputScripts o ho)
  rw [← UInt64.toNat_ofNat_of_lt' h.inputs] at hinputs
  rw [← UInt64.toNat_ofNat_of_lt' h.outputs] at houtputs
  intro rest
  simp only [Transaction.read, encode, Read.bind_run, List.append_assoc, hversion _,
    hinputCount _, hinputs _, houtputCount _, houtputs _, hlockTime _, Read.pure_run]

theorem local_read : Transaction.read.Local :=
  (Read.local_u32.mapError _).bind fun _ => (Read.local_compactSize.mapError _).bind fun _ =>
    (Input.local_read.times _).bind fun _ => (Read.local_compactSize.mapError _).bind fun _ =>
    (Output.local_read.times _).bind fun _ => (Read.local_u32.mapError _).bind fun _ =>
    Read.local_pure _

theorem ofBytes_encode {tx : Transaction} (h : tx.Countable) : ofBytes tx.encode = .ok tx := by
  have hread := takes_encode h []
  rw [List.append_nil] at hread
  simp [ofBytes, hread]

theorem ofBytes_encode_append {tx : Transaction} (h : tx.Countable) {more : Bytes}
    (hmore : more ≠ []) : ofBytes (tx.encode ++ more) = .error (.trailingBytes more.length) := by
  simp [ofBytes, takes_encode h more, hmore]

theorem ofBytes_error_of_proper_part {tx : Transaction} (h : tx.Countable) {part more : Bytes}
    (heq : part ++ more = tx.encode) (hmore : more ≠ []) : ∃ e, ofBytes part = .error e := by
  obtain ⟨e, rest, hread⟩ := (takes_encode h).error_of_proper_part local_read heq hmore
  exact ⟨e, by simp [ofBytes, hread]⟩

/-- Transactions are read back from their written forms; a written form with anything behind it
tells which transaction it is of; and nothing that lacks the end of a written form, or has bytes
behind it, is read as one transaction. -/
theorem wireForm_selfDelimiting :
    (∀ tx : Transaction, tx.Countable → ofBytes tx.encode = .ok tx) ∧
      (∀ (tx₁ tx₂ : Transaction) (s₁ s₂ : Bytes), tx₁.Countable → tx₂.Countable →
        tx₁.encode ++ s₁ = tx₂.encode ++ s₂ → tx₁ = tx₂) ∧
      (∀ (tx : Transaction) (part : Bytes), tx.Countable → part <+: tx.encode →
        part ≠ tx.encode → ∃ e, ofBytes part = .error e) ∧
      (∀ (tx : Transaction) (more : Bytes), tx.Countable → more ≠ [] →
        ∃ e, ofBytes (tx.encode ++ more) = .error e) := by
  refine ⟨fun tx h => ofBytes_encode h, ?_, ?_, ?_⟩
  · intro tx₁ tx₂ s₁ s₂ h₁ h₂ heq
    exact ((takes_encode h₁).selfDelimiting (takes_encode h₂) heq).1
  · rintro tx part h ⟨more, heq⟩ hne
    refine ofBytes_error_of_proper_part h heq ?_
    rintro rfl
    exact hne (by rw [← heq, List.append_nil])
  · intro tx more h hmore
    exact ⟨_, ofBytes_encode_append h hmore⟩

/-- A transaction whose scripts have the least lengths that are counted in three and in five
bytes. -/
def widened : Transaction where
  version := 2
  inputs := [⟨⟨.zero, 1⟩, ⟨List.replicate 253 0x51⟩, 7⟩]
  outputs := [⟨5, ⟨List.replicate 65536 0x6a⟩⟩]
  lockTime := 9

theorem widened_countable (lockTime : UInt32) : { widened with lockTime }.Countable := by
  constructor <;> simp [widened, UInt64.size, -List.reduceReplicate]

theorem wireForm_selfDelimiting_widened :
    widened.Countable ∧ ofBytes widened.encode = .ok widened ∧
      widened.encode ++ [1] ≠ { widened with lockTime := 8 }.encode ++ [1] ∧
      (∃ e, ofBytes (widened.encode.take 4) = .error e) ∧
      ∃ e, ofBytes (widened.encode ++ [0]) = .error e := by
  have h := widened_countable 9
  obtain ⟨hback, hinj, hpart, hmore⟩ := wireForm_selfDelimiting
  refine ⟨h, hback _ h, ?_, ?_, hmore _ _ h (by simp)⟩
  · intro heq
    have hlockTime := congrArg lockTime (hinj _ _ _ _ h (widened_countable 8) heq)
    simp at hlockTime
  · apply hpart _ _ h (List.take_prefix _ _)
    intro heq
    have hlength := congrArg List.length heq
    simp [encode] at hlength

end Transaction

end CashWallet
