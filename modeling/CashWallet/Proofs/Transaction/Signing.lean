import CashWallet.Proofs.Script.Pushes
import CashWallet.Transaction.Sign

/-!
# Signed transactions

Signing fills in scripts and leaves all else as it was. Digests do not depend on the scripts of the
inputs, so those made before signing are those that are checked afterwards.
-/

namespace CashWallet

open Results

/-- A fault that does not say that the built transaction pays another fee. -/
def TransactionError.KeepsFee (fault : TransactionError) : Prop :=
  ∀ paid expected, fault ≠ .feeChanged paid expected

namespace Transaction

open TransactionError (KeepsFee)

/-- Two transactions that differ at most in the scripts of their inputs. -/
structure SameBody (tx tx' : Transaction) : Prop where
  version : tx.version = tx'.version
  outpoints : tx.inputs.map Input.outpoint = tx'.inputs.map Input.outpoint
  sequences : tx.inputs.map Input.sequence = tx'.inputs.map Input.sequence
  outputs : tx.outputs = tx'.outputs
  lockTime : tx.lockTime = tx'.lockTime

theorem SameBody.length_inputs {tx tx' : Transaction} (h : SameBody tx tx') :
    tx.inputs.length = tx'.inputs.length := by
  rw [← List.length_map (f := Input.outpoint), h.outpoints, List.length_map]

theorem unlock_eq_ok_iff {tx : Transaction} {index : Nat} {spent : Output}
    {algorithm : DigestAlgorithm} {key : PrivateKey} {script : Script} :
    tx.unlock index spent algorithm key = .ok script ↔
      ∃ digest signature first, tx.signatureDigest index spent algorithm = .ok digest ∧
        key.sign digest = .ok signature ∧
        Script.empty.appendPush (signature.toDer ++ [algorithm.flag]) = .ok first ∧
        first.appendPush key.publicKey.toBytes = .ok script := by
  simp only [unlock, bind_eq_ok_iff, mapError_eq_ok_iff]
  constructor
  · rintro ⟨digest, hdigest, signature, hsignature, first, hfirst, hscript⟩
    exact ⟨digest, signature, first, hdigest, hsignature, hfirst, hscript⟩
  · rintro ⟨digest, signature, first, hdigest, hsignature, hfirst, hscript⟩
    exact ⟨digest, hdigest, signature, hsignature, first, hfirst, hscript⟩

/-- An unlocking script is not empty, and its two pushes keep it far below `2 ^ 64` bytes. -/
theorem length_unlock {tx : Transaction} {index : Nat} {spent : Output}
    {algorithm : DigestAlgorithm} {key : PrivateKey} {script : Script}
    (h : tx.unlock index spent algorithm key = .ok script) :
    0 < script.bytes.length ∧ script.bytes.length < UInt64.size := by
  obtain ⟨digest, signature, first, -, -, hfirst, hscript⟩ := unlock_eq_ok_iff.1 h
  have h₁ := Script.length_appendPush hfirst
  have h₂ := Script.length_appendPush hscript
  have hempty : Script.empty.bytes.length = 0 := rfl
  have hsize : UInt64.size = 18446744073709551616 := rfl
  omega

/-! ## Digests -/

/-- Outpoints and sequences tell inputs up to their scripts. -/
theorem mapIdx_script_congr {inputs inputs' : List Input}
    (houtpoints : inputs.map Input.outpoint = inputs'.map Input.outpoint)
    (hsequences : inputs.map Input.sequence = inputs'.map Input.sequence) (f : Nat → Script) :
    inputs.mapIdx (fun i input => { input with script := f i }) =
      inputs'.mapIdx (fun i input => { input with script := f i }) := by
  induction inputs generalizing inputs' f with
  | nil => rw [List.map_eq_nil_iff.1 houtpoints.symm]
  | cons i inputs ih =>
      cases inputs' with
      | nil => cases houtpoints
      | cons i' inputs' =>
          obtain ⟨houtpoint, houtpoints⟩ := List.cons_eq_cons.1 houtpoints
          obtain ⟨hsequence, hsequences⟩ := List.cons_eq_cons.1 hsequences
          rw [List.mapIdx_cons, List.mapIdx_cons, houtpoint, hsequence]
          exact congrArg _ (ih houtpoints hsequences fun n => f (n + 1))

theorem scriptsReplaced_congr {tx tx' : Transaction} (h : SameBody tx tx') (index : Nat)
    (spent : Script) : tx.scriptsReplaced index spent = tx'.scriptsReplaced index spent := by
  rw [scriptsReplaced, scriptsReplaced, mapIdx_script_congr h.outpoints h.sequences, h.version,
    h.outputs, h.lockTime]

theorem forkIdPreimage_congr {tx tx' : Transaction} (h : SameBody tx tx') {input input' : Input}
    (houtpoint : input.outpoint = input'.outpoint) (hsequence : input.sequence = input'.sequence)
    (spent : Output) : tx.forkIdPreimage input spent = tx'.forkIdPreimage input' spent := by
  have houtpoints : (tx.inputs.flatMap fun i => i.outpoint.encode) =
      tx'.inputs.flatMap fun i => i.outpoint.encode := by
    rw [← List.flatMap_map Input.outpoint, h.outpoints, List.flatMap_map]
  have hsequences : (tx.inputs.flatMap fun i => Endian.toLittle 4 i.sequence.toNat) =
      tx'.inputs.flatMap fun i => Endian.toLittle 4 i.sequence.toNat := by
    rw [← List.flatMap_map Input.sequence fun n => Endian.toLittle 4 n.toNat, h.sequences,
      List.flatMap_map]
  rw [forkIdPreimage, forkIdPreimage, houtpoints, hsequences, h.version, h.outputs, h.lockTime,
    houtpoint, hsequence]

/-- A digest commits to everything but the scripts of the inputs. -/
theorem signatureDigest_congr {tx tx' : Transaction} (h : SameBody tx tx') (index : Nat)
    (spent : Output) (algorithm : DigestAlgorithm) :
    tx.signatureDigest index spent algorithm = tx'.signatureDigest index spent algorithm := by
  have houtpoint := congrArg (fun l => l[index]?) h.outpoints
  have hsequence := congrArg (fun l => l[index]?) h.sequences
  have hlength := congrArg List.length h.outpoints
  simp only [List.getElem?_map, List.length_map] at houtpoint hsequence hlength
  rw [signatureDigest, signatureDigest]
  cases hinput : tx.inputs[index]? with
  | none =>
      rw [hinput, Option.map_none] at houtpoint
      rw [Option.map_eq_none_iff.1 houtpoint.symm, hlength]
  | some input =>
      cases hinput' : tx'.inputs[index]? with
      | none =>
          rw [hinput, hinput'] at houtpoint
          cases houtpoint
      | some input' =>
          rw [hinput, hinput', Option.map_some, Option.map_some, Option.some_inj] at houtpoint
          rw [hinput, hinput', Option.map_some, Option.map_some, Option.some_inj] at hsequence
          cases algorithm with
          | forkId => simp only [forkIdPreimage_congr h houtpoint hsequence]
          | legacy => simp only [legacyPreimage, scriptsReplaced_congr h]

/-! ## Faults -/

theorem signatureDigest_failsWith {P : TransactionError → Prop} (tx : Transaction) (index : Nat)
    (spent : Output) (algorithm : DigestAlgorithm)
    (h : P (.indexOutOfRange index tx.inputs.length)) :
    FailsWith P (tx.signatureDigest index spent algorithm) := by
  unfold signatureDigest
  split
  · exact failsWith_error h
  · exact failsWith_ok _

theorem unlock_keepsFee (tx : Transaction) (index : Nat) (spent : Output)
    (algorithm : DigestAlgorithm) (key : PrivateKey) :
    FailsWith KeepsFee (tx.unlock index spent algorithm key) := by
  unfold unlock
  refine FailsWith.bind (tx.signatureDigest_failsWith index spent algorithm nofun) ?_
  intro digest _
  refine FailsWith.bind (failsWith_mapError (fun _ => nofun) _) ?_
  intro signature _
  refine FailsWith.bind (failsWith_mapError (fun _ => nofun) _) ?_
  intro first _
  exact failsWith_mapError (fun _ => nofun) _

theorem unlockParts_keepsFee (index : Nat) (script : Script) :
    FailsWith KeepsFee (unlockParts index script) := by
  unfold unlockParts
  refine FailsWith.bind (failsWith_mapError (fun _ => nofun) _) ?_
  intro pushes _
  split
  · exact failsWith_ok _
  · exact failsWith_error nofun

theorem verifyInput_keepsFee (tx : Transaction) (index : Nat) (spent : Output)
    (algorithm : DigestAlgorithm) : FailsWith KeepsFee (tx.verifyInput index spent algorithm) := by
  unfold verifyInput
  split
  · refine FailsWith.bind (failsWith_mapError (fun _ => nofun) _) ?_
    intro keyHash _
    refine FailsWith.bind (unlockParts_keepsFee index _) ?_
    intro parts _
    dsimp only
    split
    · split
      · exact (failsWith_error nofun).bind nofun
      · refine FailsWith.bind (failsWith_mapError (fun _ => nofun) _) ?_
        intro publicKey _
        split
        · exact (failsWith_error nofun).bind nofun
        · refine FailsWith.bind (failsWith_mapError (fun _ => nofun) _) ?_
          intro signature _
          refine FailsWith.bind (tx.signatureDigest_failsWith index spent algorithm nofun) ?_
          intro digest _
          split
          · exact failsWith_error nofun
          · exact failsWith_ok ()
    · exact failsWith_error nofun
  · exact failsWith_error nofun

end Transaction

namespace UnsignedTransaction

open Transaction (SameBody)

variable {transaction : Transaction} {algorithm : DigestAlgorithm} {keys : List PrivateKey}

theorem scriptFor_eq_ok_iff {index : Nat} {spent : Output} {script : Script} :
    scriptFor transaction algorithm keys index spent = .ok script ↔
      ∃ keyHash key, spent.script.keyHash = .ok keyHash ∧
        keys.find? (fun key => key.publicKey.hash160 == keyHash) = some key ∧
        transaction.unlock index spent algorithm key = .ok script := by
  unfold scriptFor
  cases spent.script.keyHash with
  | error e => simp
  | ok keyHash =>
      cases hfind : keys.find? fun key => key.publicKey.hash160 == keyHash with
      | none => simp [hfind]
      | some key => simp [hfind]

theorem sign_eq_ok_iff {u : UnsignedTransaction} {s : SignedTransaction} :
    u.sign keys algorithm = .ok s ↔
      ∃ scripts : List Script, scripts.length = u.spent.length ∧
        (∀ i spent, u.spent[i]? = some spent → ∃ script, scripts[i]? = some script ∧
          scriptFor u.transaction algorithm keys i spent = .ok script) ∧
        s = ⟨withScripts u.transaction scripts, u.spent, algorithm⟩ := by
  unfold sign
  rw [bind_eq_ok_iff]
  constructor
  · rintro ⟨scripts, hscripts, h⟩
    obtain ⟨hlength, hall⟩ := mapM_zipIdx_eq_ok_iff.1 hscripts
    exact ⟨scripts, hlength, hall, (Except.ok.inj h).symm⟩
  · rintro ⟨scripts, hlength, hall, rfl⟩
    exact ⟨scripts, mapM_zipIdx_eq_ok_iff.2 ⟨hlength, hall⟩, rfl⟩

/-- What does not depend on the script of an input is the same after the scripts are put in. -/
theorem map_withScripts {α : Type} {f : Input → α}
    (hf : ∀ (i : Input) (script : Script), f { i with script } = f i) {scripts : List Script}
    (h : scripts.length = transaction.inputs.length) :
    (withScripts transaction scripts).inputs.map f = transaction.inputs.map f := by
  simp only [withScripts]
  generalize transaction.inputs = inputs at h ⊢
  induction inputs generalizing scripts with
  | nil => rfl
  | cons i inputs ih =>
      cases scripts with
      | nil => simp at h
      | cons script scripts =>
          simp only [List.zipWith_cons_cons, List.map_cons, hf]
          rw [ih (by simpa using h)]

theorem withScripts_sameBody {scripts : List Script}
    (h : scripts.length = transaction.inputs.length) :
    SameBody (withScripts transaction scripts) transaction where
  version := rfl
  outpoints := map_withScripts (fun _ _ => rfl) h
  sequences := map_withScripts (fun _ _ => rfl) h
  outputs := rfl
  lockTime := rfl

theorem script_mem_withScripts {scripts : List Script} {i : Input}
    (h : i ∈ (withScripts transaction scripts).inputs) : i.script ∈ scripts := by
  simp only [withScripts, List.mem_iff_getElem?, List.getElem?_zipWith_eq_some] at h
  obtain ⟨place, input, script, -, hscript, rfl⟩ := h
  exact List.mem_of_getElem? hscript

/-- Signing keeps the body of the transaction and gives every input a script of sensible length. -/
theorem sign_sameBody {u : UnsignedTransaction} {s : SignedTransaction}
    (h : u.sign keys algorithm = .ok s) :
    SameBody s.transaction u.transaction ∧
      ∀ i ∈ s.transaction.inputs,
        0 < i.script.bytes.length ∧ i.script.bytes.length < UInt64.size := by
  obtain ⟨scripts, hlength, hall, rfl⟩ := sign_eq_ok_iff.1 h
  refine ⟨withScripts_sameBody (hlength.trans u.length_spent), ?_⟩
  intro i hi
  obtain ⟨place, hplace⟩ := List.mem_iff_getElem?.1 (script_mem_withScripts hi)
  have hlt : place < u.spent.length := by
    rw [← hlength]
    exact (List.getElem?_eq_some_iff.1 hplace).1
  obtain ⟨script, hscript, hok⟩ := hall place _ (List.getElem?_eq_getElem hlt)
  obtain ⟨_, _, _, _, hunlock⟩ := scriptFor_eq_ok_iff.1 hok
  rw [hplace] at hscript
  rw [Option.some_inj.1 hscript]
  exact Transaction.length_unlock hunlock

open TransactionError (KeepsFee)

theorem scriptFor_keepsFee (index : Nat) (spent : Output) :
    FailsWith KeepsFee (scriptFor transaction algorithm keys index spent) := by
  unfold scriptFor
  split
  · exact failsWith_error nofun
  · split
    · exact failsWith_error nofun
    · exact transaction.unlock_keepsFee index spent algorithm _

/-- Whether a transaction can be signed is no question of its fee. -/
theorem sign_keepsFee (u : UnsignedTransaction) (keys : List PrivateKey)
    (algorithm : DigestAlgorithm) : FailsWith KeepsFee (u.sign keys algorithm) := by
  unfold sign
  apply FailsWith.bind
  · apply failsWith_mapM
    intro entry _
    exact scriptFor_keepsFee entry.2 entry.1
  · intro scripts _
    exact failsWith_ok _

end UnsignedTransaction

theorem SignedTransaction.verify_keepsFee (s : SignedTransaction) :
    FailsWith TransactionError.KeepsFee s.verify :=
  failsWith_forM fun entry _ => s.transaction.verifyInput_keepsFee entry.2 entry.1 s.algorithm

end CashWallet
