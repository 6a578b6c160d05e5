import CashWallet.Proofs.Transaction.Signing
import CashWallet.Proofs.Transaction.WireForm

/-!
# What a signature commits to

A preimage tells what it is made of. The fork preimage has parts of fixed widths and one counted
script, and the digests of three texts; as long as these do not collide, it tells the transaction up
to the scripts of its inputs, the spent output, and the outpoint and sequence of the signed input.
The legacy preimage is the wire form of the transaction with the spent script put in; it tells the
transaction up to scripts, the spent script, and the place of the signed input unless that script is
empty. The types at the end keep the two kinds apart.
-/

namespace CashWallet

namespace Outpoint

theorem encode_ne_nil (o : Outpoint) : o.encode ≠ [] := by
  apply List.ne_nil_of_length_pos
  simp [encode]

theorem length_encode (o : Outpoint) : o.encode.length = 36 := by
  simp [encode, o.txid.length_bytes]

theorem encode_inj {o o' : Outpoint} (h : o.encode = o'.encode) : o = o' := by
  have ho' := o'.takes_encode
  rw [← h] at ho'
  exact o.takes_encode.inj ho'

end Outpoint

theorem Output.encode_ne_nil (o : Output) : o.encode ≠ [] := by
  apply List.ne_nil_of_length_pos
  rw [encode, List.length_append, Endian.length_toLittle]
  omega

namespace Endian

theorem toLittle_four_inj {a b : UInt32} (h : toLittle 4 a.toNat = toLittle 4 b.toNat) : a = b := by
  have hb := Read.takes_u32 b
  rw [← h] at hb
  exact (Read.takes_u32 a).inj hb

theorem toLittle_eight_inj {a b : UInt64} (h : toLittle 8 a.toNat = toLittle 8 b.toNat) :
    a = b := by
  have hb := Read.takes_u64 b
  rw [← h] at hb
  exact (Read.takes_u64 a).inj hb

end Endian

namespace Transaction

/-! ## The texts that are hashed apart -/

def outpointText (tx : Transaction) : Bytes :=
  tx.inputs.flatMap fun i => i.outpoint.encode

def sequenceText (tx : Transaction) : Bytes :=
  tx.inputs.flatMap fun i => Endian.toLittle 4 i.sequence.toNat

def outputText (tx : Transaction) : Bytes :=
  tx.outputs.flatMap Output.encode

/-- Outpoints have one width, so no count is needed. -/
theorem outpointText_inj {tx tx' : Transaction} (h : tx.outpointText = tx'.outpointText) :
    tx.inputs.map Input.outpoint = tx'.inputs.map Input.outpoint := by
  apply Read.Takes.flatMap_inj Outpoint.encode_ne_nil
    (fun o _ => o.takes_encode) (fun o _ => o.takes_encode)
  rw [List.flatMap_map, List.flatMap_map]
  exact h

theorem sequenceText_inj {tx tx' : Transaction} (h : tx.sequenceText = tx'.sequenceText) :
    tx.inputs.map Input.sequence = tx'.inputs.map Input.sequence := by
  have hne (n : UInt32) : Endian.toLittle 4 n.toNat ≠ [] := nofun
  apply Read.Takes.flatMap_inj hne (fun n _ => Read.takes_u32 n) (fun n _ => Read.takes_u32 n)
  rw [List.flatMap_map, List.flatMap_map]
  exact h

/-- Outputs hold the counts of their scripts. -/
theorem outputText_inj {tx tx' : Transaction} (htx : tx.Countable) (htx' : tx'.Countable)
    (h : tx.outputText = tx'.outputText) : tx.outputs = tx'.outputs :=
  Read.Takes.flatMap_inj Output.encode_ne_nil
    (fun o ho => Output.takes_encode (htx.outputScripts o ho))
    (fun o ho => Output.takes_encode (htx'.outputScripts o ho)) h

/-- None of the texts that two transactions have hashed apart collides with its counterpart. -/
structure NoCollision (tx tx' : Transaction) : Prop where
  outpoints : Hash.sha256d tx.outpointText = Hash.sha256d tx'.outpointText →
    tx.outpointText = tx'.outpointText
  sequences : Hash.sha256d tx.sequenceText = Hash.sha256d tx'.sequenceText →
    tx.sequenceText = tx'.sequenceText
  outputs : Hash.sha256d tx.outputText = Hash.sha256d tx'.outputText →
    tx.outputText = tx'.outputText

/-! ## The fork preimage -/

theorem forkIdPreimage_inj {tx tx' : Transaction} {input input' : Input} {spent spent' : Output}
    (htx : tx.Countable) (htx' : tx'.Countable)
    (hspent : spent.script.bytes.length < UInt64.size)
    (hspent' : spent'.script.bytes.length < UInt64.size) (hclean : tx.NoCollision tx')
    (h : tx.forkIdPreimage input spent = tx'.forkIdPreimage input' spent') :
    SameBody tx tx' ∧ spent = spent' ∧ input.outpoint = input'.outpoint ∧
      input.sequence = input'.sequence := by
  simp only [forkIdPreimage, List.append_assoc] at h
  obtain ⟨hversion, h⟩ := List.append_inj h (by simp)
  obtain ⟨houtpoints, h⟩ := List.append_inj h (by simp)
  obtain ⟨hsequences, h⟩ := List.append_inj h (by simp)
  obtain ⟨houtpoint, h⟩ := List.append_inj h (by simp [Outpoint.length_encode])
  obtain ⟨hscript, h⟩ := (Read.takes_varBytes hspent).selfDelimiting (Read.takes_varBytes hspent') h
  obtain ⟨hvalue, h⟩ := List.append_inj h (by simp)
  obtain ⟨hsequence, h⟩ := List.append_inj h (by simp)
  obtain ⟨houtputs, h⟩ := List.append_inj h (by simp)
  obtain ⟨hlockTime, -⟩ := List.append_inj h (by simp)
  have hbody : SameBody tx tx' :=
    { version := Endian.toLittle_four_inj hversion
      outpoints := outpointText_inj (hclean.outpoints houtpoints)
      sequences := sequenceText_inj (hclean.sequences hsequences)
      outputs := outputText_inj htx htx' (hclean.outputs houtputs)
      lockTime := Endian.toLittle_four_inj hlockTime }
  refine ⟨hbody, ?_, Outpoint.encode_inj houtpoint, Endian.toLittle_four_inj hsequence⟩
  obtain ⟨value, ⟨script⟩⟩ := spent
  obtain ⟨value', ⟨script'⟩⟩ := spent'
  cases hscript
  cases Endian.toLittle_eight_inj hvalue
  rfl

/-! ## The legacy preimage -/

/-- What does not depend on the scripts is the same after they are replaced. -/
theorem map_scriptsReplaced {α : Type} {f : Input → α}
    (hf : ∀ (i : Input) (script : Script), f { i with script } = f i) (tx : Transaction)
    (index : Nat) (spent : Script) :
    (tx.scriptsReplaced index spent).inputs.map f = tx.inputs.map f := by
  apply List.ext_getElem
  · simp [scriptsReplaced]
  · intro n h h'
    simp [scriptsReplaced, hf]

theorem script_scriptsReplaced (tx : Transaction) (index n : Nat) (spent : Script) :
    ((tx.scriptsReplaced index spent).inputs[n]?).map Input.script =
      (tx.inputs[n]?).map fun _ => if n = index then spent else .empty := by
  simp [scriptsReplaced, Function.comp_def]

theorem scriptsReplaced_countable {tx : Transaction} (htx : tx.Countable) (index : Nat)
    {spent : Script} (hspent : spent.bytes.length < UInt64.size) :
    (tx.scriptsReplaced index spent).Countable where
  inputs := by simpa [scriptsReplaced] using htx.inputs
  outputs := htx.outputs
  inputScripts := by
    intro i hi
    obtain ⟨n, hn⟩ := List.mem_iff_getElem?.1 hi
    have hscript := tx.script_scriptsReplaced index n spent
    rw [hn, Option.map_some] at hscript
    obtain ⟨_, -, hi⟩ := Option.map_eq_some_iff.1 hscript.symm
    rw [← hi]
    split
    · exact hspent
    · decide
  outputScripts := htx.outputScripts

/-- Transactions that are the same after the spent scripts are put in have one body. -/
theorem sameBody_of_scriptsReplaced {tx tx' : Transaction} {index index' : Nat}
    {spent spent' : Script}
    (h : tx.scriptsReplaced index spent = tx'.scriptsReplaced index' spent') :
    SameBody tx tx' := by
  have hinputs := congrArg inputs h
  have houtpoints := congrArg (List.map Input.outpoint) hinputs
  have hsequences := congrArg (List.map Input.sequence) hinputs
  simp only [map_scriptsReplaced, implies_true] at houtpoints hsequences
  simp only [scriptsReplaced, mk.injEq] at h
  obtain ⟨hversion, -, houtputs, hlockTime⟩ := h
  exact ⟨hversion, houtpoints, hsequences, houtputs, hlockTime⟩

/-- The one script that is not cleared tells its place, unless it is empty itself. -/
theorem spent_of_scriptsReplaced {tx tx' : Transaction} {index index' : Nat}
    {spent spent' : Script} (hindex : index < tx.inputs.length)
    (hindex' : index' < tx'.inputs.length)
    (h : tx.scriptsReplaced index spent = tx'.scriptsReplaced index' spent') :
    spent = spent' ∧ (spent ≠ .empty → index = index') := by
  have hlength := congrArg List.length (sameBody_of_scriptsReplaced h).outpoints
  rw [List.length_map, List.length_map] at hlength
  have hscript (n : Nat) (hn : n < tx.inputs.length) :
      (if n = index then spent else .empty) = if n = index' then spent' else .empty := by
    have hn' : n < tx'.inputs.length := by omega
    have heq := congrArg (fun t => (t.inputs[n]?).map Input.script) h
    simpa only [script_scriptsReplaced, List.getElem?_eq_getElem hn, List.getElem?_eq_getElem hn',
      Option.map_some, Option.some_inj] using heq
  have hhere := hscript index hindex
  have hthere := hscript index' (by omega)
  by_cases hplace : index = index'
  · subst hplace
    rw [if_pos rfl, if_pos rfl] at hhere
    exact ⟨hhere, fun _ => rfl⟩
  · rw [if_pos rfl, if_neg hplace] at hhere
    rw [if_pos rfl, if_neg (Ne.symm hplace)] at hthere
    exact ⟨hhere.trans hthere, fun hne => absurd hhere hne⟩

theorem legacyPreimage_inj {tx tx' : Transaction} {index index' : Nat} {spent spent' : Script}
    (htx : tx.Countable) (htx' : tx'.Countable) (hspent : spent.bytes.length < UInt64.size)
    (hspent' : spent'.bytes.length < UInt64.size) (hindex : index < tx.inputs.length)
    (hindex' : index' < tx'.inputs.length)
    (h : tx.legacyPreimage index spent = tx'.legacyPreimage index' spent') :
    SameBody tx tx' ∧ spent = spent' ∧ (spent ≠ .empty → index = index') := by
  have hreplaced : tx.scriptsReplaced index spent = tx'.scriptsReplaced index' spent' :=
    ((takes_encode (scriptsReplaced_countable htx index hspent)).selfDelimiting
      (takes_encode (scriptsReplaced_countable htx' index' hspent')) h).1
  exact ⟨sameBody_of_scriptsReplaced hreplaced, spent_of_scriptsReplaced hindex hindex' hreplaced⟩

/-- The two kinds of preimage end with different types. -/
theorem forkIdPreimage_ne_legacyPreimage (tx tx' : Transaction) (input : Input) (spent : Output)
    (index : Nat) (script : Script) :
    tx.forkIdPreimage input spent ≠ tx'.legacyPreimage index script := by
  intro h
  have hsuffix := (List.append_inj' h rfl).2
  revert hsuffix
  decide

end Transaction

/-! ## All preimages -/

/-- An input to be signed: a transaction, the place of the input, and the output that it spends. All
lengths are numbers of 64 bits. -/
structure Spending where
  transaction : Transaction
  index : Nat
  spent : Output
  inRange : index < transaction.inputs.length
  countable : transaction.Countable
  script_lt : spent.script.bytes.length < UInt64.size

namespace Spending

open Transaction (SameBody NoCollision)

def input (s : Spending) : Input :=
  s.transaction.inputs.get ⟨s.index, s.inRange⟩

/-- The text whose double digest is signed. -/
def preimage (s : Spending) : DigestAlgorithm → Bytes
  | .forkId => s.transaction.forkIdPreimage s.input s.spent
  | .legacy => s.transaction.legacyPreimage s.index s.spent.script

theorem signatureDigest_eq (s : Spending) (algorithm : DigestAlgorithm) :
    s.transaction.signatureDigest s.index s.spent algorithm =
      .ok (Hash.sha256d (s.preimage algorithm)) := by
  rw [Transaction.signatureDigest, List.getElem?_eq_getElem s.inRange]
  cases algorithm <;> rfl

/-- What is signed is the digest of a preimage, and preimages tell what they commit to. -/
theorem preimage_commits (s s' : Spending) :
    (∀ algorithm, s.transaction.signatureDigest s.index s.spent algorithm =
      .ok (Hash.sha256d (s.preimage algorithm))) ∧
    (NoCollision s.transaction s'.transaction → s.preimage .forkId = s'.preimage .forkId →
      SameBody s.transaction s'.transaction ∧ s.spent = s'.spent ∧
        s.input.outpoint = s'.input.outpoint ∧ s.input.sequence = s'.input.sequence) ∧
    (s.preimage .legacy = s'.preimage .legacy →
      SameBody s.transaction s'.transaction ∧ s.spent.script = s'.spent.script ∧
        (s.spent.script ≠ .empty → s.index = s'.index)) ∧
    s.preimage .forkId ≠ s'.preimage .legacy := by
  refine ⟨s.signatureDigest_eq, ?_, ?_, ?_⟩
  · intro hclean h
    exact Transaction.forkIdPreimage_inj s.countable s'.countable s.script_lt s'.script_lt hclean h
  · intro h
    exact Transaction.legacyPreimage_inj s.countable s'.countable s.script_lt s'.script_lt s.inRange
      s'.inRange h
  · exact Transaction.forkIdPreimage_ne_legacyPreimage _ _ _ _ _ _

/-- An output that is spent by two inputs at once; `signed` tells whether the first of them has a
script. -/
def twins (signed : Bool) (index : Fin 2) : Spending where
  transaction :=
    { version := 2
      inputs := [⟨⟨.zero, 3⟩, ⟨if signed then [0x51] else []⟩, 7⟩, ⟨⟨.zero, 3⟩, .empty, 7⟩]
      outputs := [⟨5, ⟨[0x6a]⟩⟩, ⟨8, .empty⟩]
      lockTime := 9 }
  index := index
  spent := ⟨15, ⟨[0x51]⟩⟩
  inRange := index.isLt
  countable := by constructor <;> cases signed <;> simp [UInt64.size, Script.empty]
  script_lt := by decide

theorem twins_sameBody (signed signed' : Bool) (index index' : Fin 2) :
    SameBody (twins signed index).transaction (twins signed' index').transaction :=
  ⟨rfl, rfl, rfl, rfl, rfl⟩

/-- Inputs that are the same but for their scripts have one fork preimage, wherever they stand. -/
theorem preimage_commits_twins :
    (NoCollision (twins false 0).transaction (twins true 1).transaction ∧
      (twins false 0).preimage .forkId = (twins true 1).preimage .forkId ∧
      (twins false 0).input.outpoint = (twins true 1).input.outpoint) ∧
    (twins false 0).preimage .legacy = (twins true 0).preimage .legacy ∧
    (twins false 0).spent.script ≠ .empty ∧ (twins false 0).index = (twins true 0).index ∧
    (twins false 0).preimage .forkId ≠ (twins true 1).preimage .legacy := by
  have hclean : NoCollision (twins false 0).transaction (twins true 1).transaction :=
    ⟨fun _ => rfl, fun _ => rfl, fun _ => rfl⟩
  have hfork : (twins false 0).preimage .forkId = (twins true 1).preimage .forkId :=
    Transaction.forkIdPreimage_congr (twins_sameBody _ _ _ _) rfl rfl _
  have hlegacy : (twins false 0).preimage .legacy = (twins true 0).preimage .legacy :=
    congrArg (fun tx => tx.encode ++ DigestAlgorithm.legacy.suffix)
      (Transaction.scriptsReplaced_congr (twins_sameBody _ _ _ _) 0 _)
  have hscript : (twins false 0).spent.script ≠ .empty := by decide
  obtain ⟨-, hcommits, -, hne⟩ := preimage_commits (twins false 0) (twins true 1)
  obtain ⟨-, -, hplace, -⟩ := preimage_commits (twins false 0) (twins true 0)
  exact ⟨⟨hclean, hfork, (hcommits hclean hfork).2.2.1⟩, hlegacy, hscript,
    (hplace hlegacy).2.2 hscript, hne⟩

end Spending

end CashWallet
