import CashWallet.Proofs.Key.Forms
import CashWallet.Proofs.Script.KeyHash
import CashWallet.Proofs.Signature.Der
import CashWallet.Proofs.Signature.Ecdsa
import CashWallet.Proofs.Transaction.Signing

/-!
# Keys that control what a transaction spends

A key controls an output that pays to its hash. Signing succeeds exactly if each spent output has a
controlling key in the list, only controlling keys matter, and what comes out passes the check of
every input.
-/

namespace CashWallet

open Results

/-- The output pays to the hash of the key, in the form in which this key is written. -/
def PrivateKey.Controls (key : PrivateKey) (spent : Output) : Prop :=
  spent.script = .payToKeyHash key.publicKey.hash160

theorem PrivateKey.controls_iff {key : PrivateKey} {spent : Output} :
    key.Controls spent ↔ spent.script.keyHash = .ok key.publicKey.hash160 := by
  rw [Script.keyHash_eq_ok_iff, Controls, and_iff_right key.publicKey.length_hash160]

instance (key : PrivateKey) (spent : Output) : Decidable (key.Controls spent) :=
  inferInstanceAs (Decidable (_ = _))

/-- Two pushes on an empty script are read back. -/
theorem Script.pushes_appendPush {item item' : Bytes} {first script : Script}
    (hfirst : Script.empty.appendPush item = .ok first)
    (hscript : first.appendPush item' = .ok script) : script.pushes = .ok [item, item'] := by
  obtain ⟨header, hheader, rfl⟩ := Script.appendPush_eq_ok_iff.1 hfirst
  obtain ⟨header', hheader', rfl⟩ := Script.appendPush_eq_ok_iff.1 hscript
  have hbytes : Script.empty.bytes ++ (header ++ item) ++ (header' ++ item') =
      header ++ (item ++ (header' ++ (item' ++ []))) := by
    simp [Script.empty]
  rw [hbytes, Script.pushes_push hheader, Script.pushes_push hheader', Script.pushes_nil]
  rfl

namespace Transaction

theorem unlockParts_of_pushes {index : Nat} {signed publicKey : Bytes} {first script : Script}
    (hfirst : Script.empty.appendPush signed = .ok first)
    (hscript : first.appendPush publicKey = .ok script) :
    unlockParts index script = .ok (signed, publicKey) := by
  rw [unlockParts, Script.pushes_appendPush hfirst hscript]
  rfl

/-- An input that was unlocked by a controlling key passes the check, also after other inputs were
given their scripts. -/
theorem verifyInput_of_unlock {tx tx' : Transaction} {index : Nat} {input : Input} {spent : Output}
    {algorithm : DigestAlgorithm} {key : PrivateKey} (hbody : SameBody tx' tx)
    (hinput : tx'.inputs[index]? = some input) (hcontrols : key.Controls spent)
    (hunlock : tx.unlock index spent algorithm key = .ok input.script) :
    tx'.verifyInput index spent algorithm = .ok () := by
  obtain ⟨digest, signature, first, hdigest, hsignature, hfirst, hscript⟩ :=
    unlock_eq_ok_iff.1 hunlock
  have hparts : unlockParts index input.script = _ := unlockParts_of_pushes hfirst hscript
  have hkey := PublicKey.ofBytes_toBytes key.publicKey_isOnCurve
  have hverify := PrivateKey.verify_sign hsignature
  rw [← signatureDigest_congr hbody] at hdigest
  rw [verifyInput, hinput]
  simp only [PrivateKey.controls_iff.1 hcontrols, hparts, hdigest, hkey, signature.ofDer_toDer,
    List.getLast?_concat, List.dropLast_concat, bind, Except.bind, Except.mapError]
  simp only [hverify, ne_eq, not_true_eq_false, if_false, Bool.not_true, Bool.false_eq_true]
  rfl

/-- As soon as there is a signature of the digest, there is an unlocking script. -/
theorem exists_unlock {tx : Transaction} {index : Nat} {input : Input} {spent : Output}
    {algorithm : DigestAlgorithm} {key : PrivateKey} (hinput : tx.inputs[index]? = some input)
    (hsign : ∀ digest, tx.signatureDigest index spent algorithm = .ok digest →
      ∃ signature, key.sign digest = .ok signature) :
    ∃ script, tx.unlock index spent algorithm key = .ok script := by
  obtain ⟨digest, hdigest⟩ : ∃ digest, tx.signatureDigest index spent algorithm = .ok digest := by
    rw [signatureDigest, hinput]
    exact ⟨_, rfl⟩
  obtain ⟨signature, hsignature⟩ := hsign digest hdigest
  have hsigned : (signature.toDer ++ [algorithm.flag]).length ≤ 0xffffffff := by
    have hlength := signature.length_toDer
    rw [List.length_append, List.length_singleton]
    omega
  have hkey : key.publicKey.toBytes.length ≤ 0xffffffff := by
    rw [PublicKey.toBytes]
    split
    · rw [PublicKey.length_toCompressed]
      decide
    · rw [PublicKey.length_toUncompressed]
      decide
  obtain ⟨first, hfirst⟩ := Script.exists_appendPush Script.empty hsigned
  obtain ⟨script, hscript⟩ := Script.exists_appendPush first hkey
  exact ⟨script, unlock_eq_ok_iff.2 ⟨digest, signature, first, hdigest, hsignature, hfirst, hscript⟩⟩

end Transaction

namespace UnsignedTransaction

variable {u : UnsignedTransaction} {keys : List PrivateKey} {algorithm : DigestAlgorithm}

/-- The key controls some output that is spent. -/
def Concerns (u : UnsignedTransaction) (key : PrivateKey) : Prop :=
  ∃ spent ∈ u.spent, key.Controls spent

instance (u : UnsignedTransaction) (key : PrivateKey) : Decidable (u.Concerns key) :=
  inferInstanceAs (Decidable (∃ spent ∈ u.spent, key.Controls spent))

/-- Each spent output pays to the hash of a listed key. -/
def ControlledBy (u : UnsignedTransaction) (keys : List PrivateKey) : Prop :=
  ∀ spent ∈ u.spent, ∃ key ∈ keys, key.Controls spent

/-- Signing with a listed key that controls a spent output yields a signature of the digest. -/
def YieldsSignatures (u : UnsignedTransaction) (keys : List PrivateKey)
    (algorithm : DigestAlgorithm) : Prop :=
  ∀ i spent key digest, u.spent[i]? = some spent → key ∈ keys → key.Controls spent →
    u.transaction.signatureDigest i spent algorithm = .ok digest →
    ∃ signature, key.sign digest = .ok signature

/-- A payment out of one output has one digest to sign. -/
theorem yieldsSignatures_singleton {key : PrivateKey} {output : Output} {digest : Bytes}
    (hspent : u.spent = [output])
    (hdigest : u.transaction.signatureDigest 0 output algorithm = .ok digest)
    (hsign : ∃ signature, key.sign digest = .ok signature) :
    u.YieldsSignatures [key] algorithm := by
  intro i spent key' digest' hspent' hkey _ hdigest'
  cases List.mem_singleton.1 hkey
  rw [hspent] at hspent'
  cases i with
  | succ i => cases hspent'
  | zero =>
      cases Option.some_inj.1 hspent'
      cases hdigest'.symm.trans hdigest
      exact hsign

theorem getElem?_withScripts {tx : Transaction} {scripts : List Script} {i : Nat} {input : Input}
    {script : Script} (hinput : tx.inputs[i]? = some input) (hscript : scripts[i]? = some script) :
    (withScripts tx scripts).inputs[i]? = some { input with script } := by
  rw [withScripts, List.getElem?_zipWith, hinput, hscript]

theorem exists_input {i : Nat} {spent : Output} (h : u.spent[i]? = some spent) :
    ∃ input, u.transaction.inputs[i]? = some input := by
  have hi := (List.getElem?_eq_some_iff.1 h).1
  rw [u.length_spent] at hi
  exact ⟨_, List.getElem?_eq_getElem hi⟩

theorem exists_controls_of_scriptFor {i : Nat} {spent : Output} {script : Script}
    (h : scriptFor u.transaction algorithm keys i spent = .ok script) :
    ∃ key ∈ keys, key.Controls spent ∧
      u.transaction.unlock i spent algorithm key = .ok script := by
  obtain ⟨keyHash, key, hhash, hfind, hunlock⟩ := scriptFor_eq_ok_iff.1 h
  have hkey : key.publicKey.hash160 = keyHash := by simpa using List.find?_some hfind
  refine ⟨key, List.mem_of_find?_eq_some hfind, ?_, hunlock⟩
  rw [PrivateKey.controls_iff, hkey]
  exact hhash

/-- What signing yields passes the check of every input, although the digests were made before any
script was put in. -/
theorem verify_of_sign {s : SignedTransaction} (h : u.sign keys algorithm = .ok s) :
    s.verify = .ok () := by
  obtain ⟨scripts, hlength, hall, rfl⟩ := sign_eq_ok_iff.1 h
  apply forM_eq_ok_iff.2
  rintro ⟨spent, i⟩ hentry
  have hspent : u.spent[i]? = some spent := List.mk_mem_zipIdx_iff_getElem?.1 hentry
  obtain ⟨script, hscript, hok⟩ := hall i spent hspent
  obtain ⟨input, hinput⟩ := exists_input hspent
  obtain ⟨key, -, hcontrols, hunlock⟩ := exists_controls_of_scriptFor hok
  exact Transaction.verifyInput_of_unlock (withScripts_sameBody (hlength.trans u.length_spent))
    (getElem?_withScripts hinput hscript) hcontrols hunlock

/-! ## Why signing fails -/

/-- Without a controlling key the fault is one of signing. -/
theorem scriptFor_uncontrolled {i : Nat} {spent : Output} (h : ∀ key ∈ keys, ¬ key.Controls spent) :
    ∃ e, scriptFor u.transaction algorithm keys i spent = .error e ∧ e.kind = "SigningError" := by
  unfold scriptFor
  cases hhash : spent.script.keyHash with
  | error e => exact ⟨_, rfl, rfl⟩
  | ok keyHash =>
      have hfind : (keys.find? fun key => key.publicKey.hash160 == keyHash) = none := by
        apply List.find?_eq_none.2
        intro key hkey hequal
        apply h key hkey
        rw [PrivateKey.controls_iff, beq_iff_eq.1 hequal]
        exact hhash
      exact ⟨.noKey i keyHash, by simp only [hfind], rfl⟩

theorem exists_scriptFor (hsign : u.YieldsSignatures keys algorithm) {i : Nat} {spent : Output}
    (hspent : u.spent[i]? = some spent) (h : ∃ key ∈ keys, key.Controls spent) :
    ∃ script, scriptFor u.transaction algorithm keys i spent = .ok script := by
  obtain ⟨key, hkey, hcontrols⟩ := h
  have hhash := PrivateKey.controls_iff.1 hcontrols
  obtain ⟨input, hinput⟩ := exists_input hspent
  -- the key that is found may be another one of the same hash
  cases hfind : keys.find? fun k => k.publicKey.hash160 == key.publicKey.hash160 with
  | none => exact absurd (beq_self_eq_true _) (List.find?_eq_none.1 hfind key hkey)
  | some found =>
      have hfound : found.publicKey.hash160 = key.publicKey.hash160 := by
        simpa using List.find?_some hfind
      have hcontrols' : found.Controls spent := by
        rw [PrivateKey.controls_iff, hfound]
        exact hhash
      obtain ⟨script, hscript⟩ := Transaction.exists_unlock hinput
        (hsign i spent found · hspent (List.mem_of_find?_eq_some hfind) hcontrols')
      exact ⟨script, scriptFor_eq_ok_iff.2 ⟨_, found, hhash, hfind, hscript⟩⟩

/-- Signing fails only for want of a key, and says so. -/
theorem sign_failsWith (hsign : u.YieldsSignatures keys algorithm) :
    FailsWith (fun e => ¬ u.ControlledBy keys ∧ e.kind = "SigningError")
      (u.sign keys algorithm) := by
  unfold sign
  apply FailsWith.bind
  · apply failsWith_mapM
    rintro ⟨spent, i⟩ hentry
    have hspent : u.spent[i]? = some spent := List.mk_mem_zipIdx_iff_getElem?.1 hentry
    by_cases hcontrols : ∃ key ∈ keys, key.Controls spent
    · obtain ⟨script, hscript⟩ := exists_scriptFor hsign hspent hcontrols
      rw [hscript]
      exact failsWith_ok script
    · have hnone : ∀ key ∈ keys, ¬ key.Controls spent := by
        intro key hkey h
        exact hcontrols ⟨key, hkey, h⟩
      obtain ⟨e, he, hkind⟩ := scriptFor_uncontrolled hnone
      rw [he]
      apply failsWith_error
      refine ⟨?_, hkind⟩
      intro hall
      exact hcontrols (hall spent (List.mem_of_getElem? hspent))
  · intro scripts _
    exact failsWith_ok _

theorem controlledBy_of_sign {s : SignedTransaction} (h : u.sign keys algorithm = .ok s) :
    u.ControlledBy keys := by
  obtain ⟨scripts, -, hall, -⟩ := sign_eq_ok_iff.1 h
  intro spent hmem
  obtain ⟨i, hspent⟩ := List.mem_iff_getElem?.1 hmem
  obtain ⟨script, -, hok⟩ := hall i spent hspent
  obtain ⟨key, hkey, hcontrols, -⟩ := exists_controls_of_scriptFor hok
  exact ⟨key, hkey, hcontrols⟩

theorem exists_sign_iff (hsign : u.YieldsSignatures keys algorithm) :
    (∃ s, u.sign keys algorithm = .ok s) ↔ u.ControlledBy keys := by
  constructor
  · rintro ⟨s, h⟩
    exact controlledBy_of_sign h
  · intro h
    cases hresult : u.sign keys algorithm with
    | ok s => exact ⟨s, rfl⟩
    | error e => exact absurd h (sign_failsWith hsign e hresult).1

/-! ## Keys that do not matter -/

theorem scriptFor_filter {i : Nat} {spent : Output} (hspent : spent ∈ u.spent) :
    scriptFor u.transaction algorithm (keys.filter fun key => u.Concerns key) i spent =
      scriptFor u.transaction algorithm keys i spent := by
  unfold scriptFor
  cases hhash : spent.script.keyHash with
  | error e => rfl
  | ok keyHash =>
      have hfind : (keys.filter fun key => u.Concerns key).find?
            (fun key => key.publicKey.hash160 == keyHash) =
          keys.find? fun key => key.publicKey.hash160 == keyHash := by
        rw [List.find?_filter]
        apply congrArg (List.find? · keys)
        ext key
        have hconcerns : (key.publicKey.hash160 == keyHash) = true → u.Concerns key := by
          intro hequal
          refine ⟨spent, hspent, ?_⟩
          rw [PrivateKey.controls_iff, beq_iff_eq.1 hequal]
          exact hhash
        by_cases hequal : (key.publicKey.hash160 == keyHash) = true
        · simp [hequal, hconcerns hequal]
        · simp [hequal]
      simp only [hfind]

/-- Only keys that control a spent output have a say in what signing yields. -/
theorem sign_filter (u : UnsignedTransaction) (keys : List PrivateKey)
    (algorithm : DigestAlgorithm) :
    u.sign (keys.filter fun key => u.Concerns key) algorithm = u.sign keys algorithm := by
  have hscripts : u.spent.zipIdx.mapM (fun entry =>
        scriptFor u.transaction algorithm (keys.filter fun key => u.Concerns key) entry.2 entry.1) =
      u.spent.zipIdx.mapM fun entry =>
        scriptFor u.transaction algorithm keys entry.2 entry.1 := by
    apply mapM_congr
    rintro ⟨spent, i⟩ hentry
    apply scriptFor_filter
    exact List.mem_of_getElem? (List.mk_mem_zipIdx_iff_getElem?.1 hentry)
  rw [sign, sign, hscripts]

/-- Signing succeeds exactly if each spent output pays to the hash of a listed key. Then only the
scripts are new, none of them is empty, and each input passes the check. Otherwise the fault is one
of signing. Lists that have the same controlling keys in the same order give the same result. -/
theorem sign_controlled (u : UnsignedTransaction) (keys : List PrivateKey)
    (algorithm : DigestAlgorithm) (hsign : u.YieldsSignatures keys algorithm) :
    ((∃ s, u.sign keys algorithm = .ok s) ↔ u.ControlledBy keys) ∧
      (∀ s, u.sign keys algorithm = .ok s →
        s.transaction.SameBody u.transaction ∧ s.spent = u.spent ∧ s.algorithm = algorithm ∧
          (∀ input ∈ s.transaction.inputs, input.isSigned = true) ∧ s.verify = .ok ()) ∧
      (∀ e, u.sign keys algorithm = .error e → e.kind = "SigningError") ∧
      ∀ keys' : List PrivateKey,
        (keys'.filter fun key => u.Concerns key) = (keys.filter fun key => u.Concerns key) →
          u.sign keys' algorithm = u.sign keys algorithm := by
  refine ⟨exists_sign_iff hsign, ?_, ?_, ?_⟩
  · intro s h
    obtain ⟨hbody, hscripts⟩ := sign_sameBody h
    obtain ⟨scripts, -, -, hs⟩ := sign_eq_ok_iff.1 h
    refine ⟨hbody, by rw [hs], by rw [hs], ?_, verify_of_sign h⟩
    intro input hinput
    have hne : input.script.bytes ≠ [] := List.length_pos_iff.1 (hscripts input hinput).1
    simpa [Input.isSigned] using hne
  · intro e h
    exact (sign_failsWith hsign e h).2
  · intro keys' h
    calc u.sign keys' algorithm
        = u.sign (keys'.filter fun key => u.Concerns key) algorithm := (sign_filter ..).symm
      _ = u.sign (keys.filter fun key => u.Concerns key) algorithm := by rw [h]
      _ = u.sign keys algorithm := sign_filter ..

/-- A key that pays to itself. -/
def sampleKey : PrivateKey where
  scalar := 7
  scalar_pos := by decide
  scalar_lt := by decide

def sampleOutput : Output :=
  ⟨1000, .payToKeyHash sampleKey.publicKey.hash160⟩

def samplePayment : UnsignedTransaction where
  transaction :=
    { version := 1
      inputs := [.unsigned ⟨TxId.ofData [], 0⟩]
      outputs := [{ sampleOutput with value := 900 }]
      lockTime := 0 }
  spent := [sampleOutput]
  length_spent := rfl

def sampleDigest : Bytes :=
  Endian.toBig 32 0x5cf0d2ba34832e65d312ee80761f9028186fe017fcfcea02c9829c408d85f2dc

theorem samplePayment_digest :
    samplePayment.transaction.signatureDigest 0 sampleOutput .legacy = .ok sampleDigest :=
  eq_ok_of_toOption (by decide +kernel)

-- the hashes are computed one by one, as all of them at once would take much memory
theorem samplePayment_nonce : Nonce.forDigest? sampleKey.scalar sampleDigest = some
    0xba285dcf6720f0c59ac9caec1b93ac703a947d5283f1b87074e73ea2ec0532db :=
  Nonce.forDigest?_of_first
    (Endian.toBig 32 0x6aa4a2edcc6fa72d049096bc4d454ef7a46d398dc939d4879f506b3a66d44bdf)
    (Endian.toBig 32 0x6f614cdcfbf129db5359b2187ae3116a2529080c9c7cb1bd2bfcab42b7e8898f)
    (Endian.toBig 32 0x62d214810eea867ad4d35f5febc9ba6006ebf8285d3f4c0f697f5efd7e50ca5d)
    (Endian.toBig 32 0x77d0ca092eec6a8205cf78b788002160c46b65ac920aacaac1fdf65ff5023134)
    (Endian.toBig 32 0xba285dcf6720f0c59ac9caec1b93ac703a947d5283f1b87074e73ea2ec0532db)
    (by decide +kernel) (by decide +kernel) (by decide +kernel) (by decide +kernel)
    (by decide +kernel) (by decide)

theorem samplePayment_signature : ∃ signature, sampleKey.sign sampleDigest = .ok signature := by
  have hsigned : ((some 0xba285dcf6720f0c59ac9caec1b93ac703a947d5283f1b87074e73ea2ec0532db).bind
      (sampleKey.signWithNonce? sampleDigest)).isSome = true := by
    decide +kernel
  obtain ⟨signature, hsignature⟩ := Option.isSome_iff_exists.1 hsigned
  rw [PrivateKey.sign, samplePayment_nonce, hsignature]
  exact ⟨signature, rfl⟩

theorem samplePayment_yieldsSignatures :
    samplePayment.YieldsSignatures [sampleKey] .legacy :=
  yieldsSignatures_singleton rfl samplePayment_digest samplePayment_signature

theorem sign_controlled_sample :
    ∃ s, samplePayment.sign [sampleKey] .legacy = .ok s ∧ s.verify = .ok () := by
  obtain ⟨hiff, hok, -, -⟩ :=
    sign_controlled samplePayment [sampleKey] .legacy samplePayment_yieldsSignatures
  have hcontrolled : samplePayment.ControlledBy [sampleKey] := by
    intro spent hspent
    cases List.mem_singleton.1 hspent
    exact ⟨sampleKey, List.mem_singleton_self _, rfl⟩
  obtain ⟨s, hs⟩ := hiff.2 hcontrolled
  exact ⟨s, hs, (hok s hs).2.2.2.2⟩

end UnsignedTransaction

end CashWallet
