import CashWallet.Proofs.Ledger.Drafts
import CashWallet.Proofs.Transaction.Control

/-!
# One signature on either way

An input is unlocked by a signature of its digest. The same digest, handed out in hexadecimal, is
signed by the same key with the same signature. So signing a transaction succeeds exactly if the
digests of its inputs can be signed one by one, and the script of each input pushes what is handed
out for its digest.
-/

namespace CashWallet

open Results

/-- The script pushes two items: the bytes of the one signature with the type byte behind them, and
the bytes of the one public key. -/
def Script.PushesSigned (script : Script) (algorithm : DigestAlgorithm) (signed : DraftSignatures) :
    Prop :=
  ∃ (signature publicKey : String) (der keyBytes : Bytes),
    signed = ⟨[signature], [publicKey]⟩ ∧ Hex.decode signature = .ok der ∧
    Hex.decode publicKey = .ok keyBytes ∧ script.pushes = .ok [der ++ [algorithm.flag], keyBytes]

namespace PrivateKey

variable {key : PrivateKey} {digest : Bytes} {signature : Signature} {signed : DraftSignatures}

theorem signs_encode_iff :
    key.Signs (Hex.encode digest) signature ↔ digest.length = 32 ∧ key.sign digest = .ok signature := by
  constructor
  · rintro ⟨bytes, hbytes, h⟩
    rw [Hex.decode_encode] at hbytes
    rwa [Except.ok.inj hbytes]
  · intro h
    exact ⟨digest, Hex.decode_encode digest, h⟩

/-- For one digest the texts of its signature and of the public key are handed out. -/
theorem eq_of_signDigests_singleton (h : key.signDigests [Hex.encode digest] = .ok signed) :
    ∃ signature, key.sign digest = .ok signature ∧
      signed = ⟨[signature.toDerHex], [key.publicKey.toHex]⟩ := by
  obtain ⟨signatures, publicKeys⟩ := signed
  obtain ⟨hkeys, hlength, hentries⟩ := signDigests_spec h
  obtain ⟨signature, hsigns, hfirst⟩ := hentries 0 _ rfl
  obtain ⟨text, rfl⟩ := List.length_eq_one_iff.1 hlength
  have htext : text = signature.toDerHex := Option.some.inj hfirst
  refine ⟨signature, (signs_encode_iff.1 hsigns).2, ?_⟩
  rw [htext]
  exact congrArg _ hkeys

theorem signDigests_singleton (hlength : digest.length = 32) (h : key.sign digest = .ok signature) :
    key.signDigests [Hex.encode digest] =
      .ok ⟨[signature.toDerHex], [key.publicKey.toHex]⟩ := by
  have hsigns : ∀ text ∈ [Hex.encode digest], ∃ signature, key.Signs text signature := by
    intro text htext
    rw [List.mem_singleton.1 htext]
    exact ⟨signature, signs_encode_iff.2 ⟨hlength, h⟩⟩
  obtain ⟨signed, hsigned⟩ := exists_signDigests_iff.2 hsigns
  obtain ⟨signature', h', rfl⟩ := eq_of_signDigests_singleton hsigned
  rw [h] at h'
  rw [hsigned, Except.ok.inj h']

end PrivateKey

namespace Transaction

variable {tx : Transaction} {index : Nat} {spent : Output} {algorithm : DigestAlgorithm}
  {key : PrivateKey} {digest : Bytes} {script : Script}

theorem length_signatureDigest (h : tx.signatureDigest index spent algorithm = .ok digest) :
    digest.length = 32 := by
  unfold signatureDigest at h
  split at h
  · cases h
  · cases h
    exact Hash.length_sha256d _

/-- An unlocking script pushes what is handed out for the digest of its input. -/
theorem pushesSigned_of_unlock (h : tx.unlock index spent algorithm key = .ok script) :
    ∃ digest signed, tx.signatureDigest index spent algorithm = .ok digest ∧
      key.signDigests [Hex.encode digest] = .ok signed ∧ script.PushesSigned algorithm signed := by
  obtain ⟨digest, signature, first, hdigest, hsignature, hfirst, hscript⟩ :=
    unlock_eq_ok_iff.1 h
  refine ⟨digest, _, hdigest,
    PrivateKey.signDigests_singleton (length_signatureDigest hdigest) hsignature, ?_⟩
  exact ⟨_, _, signature.toDer, key.publicKey.toBytes, rfl, Hex.decode_encode _,
    Hex.decode_encode _, Script.pushes_appendPush hfirst hscript⟩

end Transaction

namespace UnsignedTransaction

variable {u : UnsignedTransaction} {keys : List PrivateKey} {algorithm : DigestAlgorithm}
  {index : Nat} {spent : Output} {key : PrivateKey} {script : Script}

/-- The key that is looked for is the first listed one that controls the output. -/
theorem find?_controls_iff : keys.find? (fun key => key.Controls spent) = some key ↔
    ∃ keyHash, spent.script.keyHash = .ok keyHash ∧
      keys.find? (fun key => key.publicKey.hash160 == keyHash) = some key := by
  simp only [PrivateKey.controls_iff]
  cases spent.script.keyHash with
  | error e =>
      have hnone : keys.find? (fun _ => false) = none := List.find?_eq_none.2 (by simp)
      simp [hnone]
  | ok keyHash => simp [eq_comm (a := keyHash), beq_eq_decide]

theorem scriptFor_eq_ok_iff_unlock :
    scriptFor u.transaction algorithm keys index spent = .ok script ↔
      ∃ key, keys.find? (fun key => key.Controls spent) = some key ∧
        u.transaction.unlock index spent algorithm key = .ok script := by
  rw [scriptFor_eq_ok_iff]
  simp only [find?_controls_iff]
  constructor
  · rintro ⟨keyHash, key, hhash, hfind, hunlock⟩
    exact ⟨key, ⟨keyHash, hhash, hfind⟩, hunlock⟩
  · rintro ⟨key, ⟨keyHash, hhash, hfind⟩, hunlock⟩
    exact ⟨keyHash, key, hhash, hfind, hunlock⟩

/-- There is a script for an input exactly if its digest can be signed by itself. -/
theorem exists_scriptFor_iff (hspent : u.spent[index]? = some spent) :
    (∃ script, scriptFor u.transaction algorithm keys index spent = .ok script) ↔
      ∃ key digest signed, keys.find? (fun key => key.Controls spent) = some key ∧
        u.transaction.signatureDigest index spent algorithm = .ok digest ∧
        key.signDigests [Hex.encode digest] = .ok signed := by
  constructor
  · rintro ⟨script, h⟩
    obtain ⟨key, hfind, hunlock⟩ := scriptFor_eq_ok_iff_unlock.1 h
    obtain ⟨digest, signed, hdigest, hsigned, -⟩ := Transaction.pushesSigned_of_unlock hunlock
    exact ⟨key, digest, signed, hfind, hdigest, hsigned⟩
  · rintro ⟨key, digest, signed, hfind, hdigest, hsigned⟩
    obtain ⟨signature, hsignature, -⟩ := PrivateKey.eq_of_signDigests_singleton hsigned
    obtain ⟨input, hinput⟩ := exists_input hspent
    have hsign : ∀ digest', u.transaction.signatureDigest index spent algorithm = .ok digest' →
        ∃ signature, key.sign digest' = .ok signature := by
      intro digest' hdigest'
      rw [hdigest] at hdigest'
      rw [← Except.ok.inj hdigest']
      exact ⟨signature, hsignature⟩
    obtain ⟨script, hscript⟩ := Transaction.exists_unlock hinput hsign
    exact ⟨script, scriptFor_eq_ok_iff_unlock.2 ⟨key, hfind, hscript⟩⟩

theorem exists_sign_iff_scripts : (∃ s, u.sign keys algorithm = .ok s) ↔
    ∀ index spent, u.spent[index]? = some spent →
      ∃ script, scriptFor u.transaction algorithm keys index spent = .ok script := by
  constructor
  · rintro ⟨s, h⟩ index spent hspent
    obtain ⟨scripts, -, hall, -⟩ := sign_eq_ok_iff.1 h
    obtain ⟨script, -, hscript⟩ := hall index spent hspent
    exact ⟨script, hscript⟩
  · intro h
    have hentries : ∀ entry ∈ u.spent.zipIdx, ∃ script,
        scriptFor u.transaction algorithm keys entry.2 entry.1 = .ok script := by
      rintro ⟨spent, index⟩ hentry
      exact h index spent (List.mk_mem_zipIdx_iff_getElem?.1 hentry)
    obtain ⟨scripts, hscripts⟩ := exists_mapM_iff.2 hentries
    exact ⟨_, bind_eq_ok_iff.2 ⟨scripts, hscripts, rfl⟩⟩

/-- Signing a transaction and signing the digests of its inputs by themselves agree: the one
succeeds exactly if the other does for each input, with the first listed key that controls what the
input spends. The script of an input then pushes the signature and the public key that are handed
out for its digest, the signature with the type byte behind it. -/
theorem sign_agrees (u : UnsignedTransaction) (keys : List PrivateKey)
    (algorithm : DigestAlgorithm) :
    ((∃ s, u.sign keys algorithm = .ok s) ↔
      ∀ index spent, u.spent[index]? = some spent → ∃ key digest signed,
        keys.find? (fun key => key.Controls spent) = some key ∧
        u.transaction.signatureDigest index spent algorithm = .ok digest ∧
        key.signDigests [Hex.encode digest] = .ok signed) ∧
    ∀ s index spent key, u.sign keys algorithm = .ok s → u.spent[index]? = some spent →
      keys.find? (fun key => key.Controls spent) = some key →
      ∃ digest signed input, u.transaction.signatureDigest index spent algorithm = .ok digest ∧
        key.signDigests [Hex.encode digest] = .ok signed ∧
        s.transaction.inputs[index]? = some input ∧ input.script.PushesSigned algorithm signed := by
  constructor
  · rw [exists_sign_iff_scripts]
    refine forall_congr' fun index => forall_congr' fun spent => forall_congr' fun hspent => ?_
    exact exists_scriptFor_iff hspent
  · intro s index spent key hsign hspent hfind
    obtain ⟨scripts, -, hall, rfl⟩ := sign_eq_ok_iff.1 hsign
    obtain ⟨script, hplace, hscript⟩ := hall index spent hspent
    obtain ⟨key', hfind', hunlock⟩ := scriptFor_eq_ok_iff_unlock.1 hscript
    rw [hfind, Option.some_inj] at hfind'
    subst hfind'
    obtain ⟨digest, signed, hdigest, hsigned, hpushes⟩ :=
      Transaction.pushesSigned_of_unlock hunlock
    obtain ⟨input, hinput⟩ := exists_input hspent
    exact ⟨digest, signed, _, hdigest, hsigned, getElem?_withScripts hinput hplace, hpushes⟩

/-- A key that has nothing to do with the payment. -/
def otherKey : PrivateKey where
  scalar := 3
  scalar_pos := by decide
  scalar_lt := by decide

theorem find?_sampleKey :
    [otherKey, sampleKey].find? (fun key => key.Controls sampleOutput) = some sampleKey := by
  have hother : ¬ otherKey.Controls sampleOutput := by decide +kernel
  rw [List.find?_cons_of_neg (by simpa using hother)]
  exact List.find?_cons_of_pos (decide_eq_true rfl)

/-- The key of the payment stands behind another one. -/
theorem sign_agrees_sample : ∃ s signed input,
    samplePayment.sign [otherKey, sampleKey] .legacy = .ok s ∧
    sampleKey.signDigests [Hex.encode sampleDigest] = .ok signed ∧
    s.transaction.inputs[0]? = some input ∧ input.script.PushesSigned .legacy signed := by
  obtain ⟨hiff, hscripts⟩ := sign_agrees samplePayment [otherKey, sampleKey] .legacy
  obtain ⟨signature, hsignature⟩ := samplePayment_signature
  have hspent : samplePayment.spent[0]? = some sampleOutput := rfl
  have hsigned :=
    PrivateKey.signDigests_singleton (Transaction.length_signatureDigest samplePayment_digest)
      hsignature
  obtain ⟨s, hs⟩ : ∃ s, samplePayment.sign [otherKey, sampleKey] .legacy = .ok s := by
    refine hiff.2 fun index spent h => ?_
    cases index with
    | zero =>
        cases h
        exact ⟨sampleKey, sampleDigest, _, find?_sampleKey, samplePayment_digest, hsigned⟩
    | succ index => cases h
  obtain ⟨digest, signed, input, hdigest, hsigned', hinput, hpushes⟩ :=
    hscripts s 0 sampleOutput sampleKey hs hspent find?_sampleKey
  rw [samplePayment_digest] at hdigest
  rw [← Except.ok.inj hdigest] at hsigned'
  exact ⟨s, signed, input, hs, hsigned', hinput, hpushes⟩

end UnsignedTransaction

end CashWallet
