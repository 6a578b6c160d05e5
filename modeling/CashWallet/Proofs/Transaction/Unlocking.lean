import CashWallet.Proofs.Script.Chunks
import CashWallet.Proofs.Signature.Strict
import CashWallet.Proofs.Transaction.Control

/-!
# What the check of an input accepts

The script rule of the network hashes a public key as it is pushed. The check hashes the key as it
is written again, and reads signatures and pushes by readers that accept nothing but what they
write. So the check and the rule differ in one point: an even ordinate may be told by the tag 5
where the spent output is locked to the hash of the key with the tag 2.
-/

namespace CashWallet

open Results

theorem PublicKey.ne_nil_of_ofBytes {bs : Bytes} {key : PublicKey} (h : ofBytes bs = .ok key) :
    bs ≠ [] := by
  rintro rfl
  cases h

theorem PublicKey.ofBytes_evenTag {body : Bytes} (h : body.length = 32) :
    ofBytes (5 :: body) = ofBytes (2 :: body) := by
  simp [ofBytes, pointOf?, h]

namespace Transaction

variable {tx tx' : Transaction} {index : Nat} {spent : Output} {algorithm : DigestAlgorithm}
  {signed publicKey hashed : Bytes}

/-- The input at `index` pushes a signature with its digest type and the public key under which it
is valid, and the output it spends is locked to the hash of `hashed`. The script rule of the network
hashes what is pushed, so that it asks for this with `publicKey` in the place of `hashed`. -/
structure Unlocks (tx : Transaction) (index : Nat) (spent : Output) (algorithm : DigestAlgorithm)
    (signed publicKey hashed : Bytes) : Prop where
  pushed : ∃ input, tx.inputs[index]? = some input ∧ input.script.PushesData [signed, publicKey]
  locked : spent.script = .payToKeyHash (Hash.hash160 hashed)
  valid : ∃ signature key digest, signed = signature.toDer ++ [algorithm.flag] ∧
    PublicKey.ofBytes publicKey = .ok key ∧ tx.signatureDigest index spent algorithm = .ok digest ∧
      key.verify digest signature = true

theorem unlockParts_eq_ok_iff {script : Script} :
    unlockParts index script = .ok (signed, publicKey) ↔
      script.pushes = .ok [signed, publicKey] := by
  rw [unlockParts, bind_eq_ok_iff]
  constructor
  · rintro ⟨pushes, hpushes, h⟩
    rw [mapError_eq_ok_iff] at hpushes
    split at h
    · cases h
      exact hpushes
    · cases h
  · intro h
    exact ⟨_, mapError_eq_ok_iff.2 h, rfl⟩

/-- What the check reads and compares on its way to success. -/
theorem verifyInput_steps : tx.verifyInput index spent algorithm = .ok () ↔
    ∃ input signed publicKey key signature digest, tx.inputs[index]? = some input ∧
      spent.script.keyHash = .ok (PublicKey.hash160 key) ∧
      input.script.pushes = .ok [signed, publicKey] ∧ signed.getLast? = some algorithm.flag ∧
      PublicKey.ofBytes publicKey = .ok key ∧ Signature.ofDer signed.dropLast = .ok signature ∧
      tx.signatureDigest index spent algorithm = .ok digest ∧
      key.verify digest signature = true := by
  constructor
  · intro h
    rw [verifyInput] at h
    split at h
    case h_2 => cases h
    case h_1 input hinput =>
      obtain ⟨keyHash, hhash, h⟩ := bind_eq_ok_iff.1 h
      obtain ⟨⟨signed, publicKey⟩, hparts, h⟩ := bind_eq_ok_iff.1 h
      dsimp only at h
      split at h
      case h_2 => cases h
      case h_1 flag hlast =>
        split at h
        case isTrue => cases h
        case isFalse hflag =>
          obtain ⟨key, hkey, h⟩ := bind_eq_ok_iff.1 h
          split at h
          case isTrue => cases h
          case isFalse hforeign =>
            obtain ⟨signature, hsignature, h⟩ := bind_eq_ok_iff.1 h
            obtain ⟨digest, hdigest, h⟩ := bind_eq_ok_iff.1 h
            split at h
            case isTrue => cases h
            case isFalse hvalid =>
              rw [mapError_eq_ok_iff] at hhash hkey hsignature
              rw [not_not.1 hflag] at hlast
              rw [← not_not.1 hforeign] at hhash
              exact ⟨input, signed, publicKey, key, signature, digest, hinput, hhash,
                unlockParts_eq_ok_iff.1 hparts, hlast, hkey, hsignature, hdigest,
                by simpa using hvalid⟩
  · rintro ⟨input, signed, publicKey, key, signature, digest, hinput, hhash, hpushes, hlast, hkey,
      hsignature, hdigest, hvalid⟩
    rw [verifyInput, hinput]
    simp only [hhash, unlockParts_eq_ok_iff.2 hpushes, hlast, hkey, hsignature, hdigest, bind,
      Except.bind, Except.mapError]
    simp only [hvalid, ne_eq, not_true_eq_false, if_false, Bool.not_true, Bool.false_eq_true]
    rfl

/-- Neither a signature nor a key is empty. -/
theorem Unlocks.filled (h : tx.Unlocks index spent algorithm signed publicKey hashed) :
    ∀ item ∈ [signed, publicKey], item ≠ [] := by
  obtain ⟨signature, key, digest, rfl, hkey, -, -⟩ := h.valid
  simp [PublicKey.ne_nil_of_ofBytes hkey]

/-- An input pushes one pair of items only. -/
theorem Unlocks.eq_of_pushed {signed' publicKey' : Bytes}
    (h : tx.Unlocks index spent algorithm signed publicKey hashed)
    (h' : ∃ input, tx.inputs[index]? = some input ∧
      input.script.PushesData [signed', publicKey']) :
    signed = signed' ∧ publicKey = publicKey' := by
  obtain ⟨input, hinput, hpushed⟩ := h.pushed
  obtain ⟨input', hinput', hpushed'⟩ := h'
  rw [hinput] at hinput'
  cases hinput'
  simpa using Script.pushesData_unique hpushed hpushed'

/-- The check accepts an input exactly if it unlocks an output that is locked to the hash of the key
as it is written again. -/
theorem verifyInput_eq_ok_iff : tx.verifyInput index spent algorithm = .ok () ↔
    ∃ signed publicKey,
      tx.Unlocks index spent algorithm signed publicKey (PublicKey.retagged publicKey) := by
  rw [verifyInput_steps]
  constructor
  · rintro ⟨input, signed, publicKey, key, signature, digest, hinput, hhash, hpushes, hlast, hkey,
      hsignature, hdigest, hvalid⟩
    have hsigned : signed = signature.toDer ++ [algorithm.flag] := by
      obtain ⟨der, rfl⟩ := List.getLast?_eq_some_iff.1 hlast
      rw [List.dropLast_concat] at hsignature
      rw [Signature.toDer_of_ofDer hsignature]
    have hfilled : ∀ item ∈ [signed, publicKey], item ≠ [] := by
      simp [hsigned, PublicKey.ne_nil_of_ofBytes hkey]
    have hpushed := (Script.pushes_eq_ok_iff hfilled).1 hpushes
    have hlocked := (Script.keyHash_eq_ok_iff.1 hhash).2
    rw [PublicKey.hash160, PublicKey.toBytes_of_ofBytes hkey] at hlocked
    exact ⟨signed, publicKey, ⟨input, hinput, hpushed⟩, hlocked,
      ⟨signature, key, digest, hsigned, hkey, hdigest, hvalid⟩⟩
  · rintro ⟨signed, publicKey, h⟩
    obtain ⟨input, hinput, hpushed⟩ := h.pushed
    have hpushes := (Script.pushes_eq_ok_iff h.filled).2 hpushed
    obtain ⟨signature, key, digest, rfl, hkey, hdigest, hvalid⟩ := h.valid
    have hhash : spent.script.keyHash = .ok key.hash160 := by
      rw [PublicKey.hash160, PublicKey.toBytes_of_ofBytes hkey, Script.keyHash_eq_ok_iff]
      exact ⟨Hash.length_hash160 _, h.locked⟩
    refine ⟨input, _, publicKey, key, signature, digest, hinput, hhash, hpushes,
      List.getLast?_concat, hkey, ?_, hdigest, hvalid⟩
    rw [List.dropLast_concat, signature.ofDer_toDer]

/-- A key with an even ordinate may be pushed with the tag 5 where the output is locked to the hash
of the key with the tag 2. -/
theorem verifyInput_evenTag {body : Bytes} (hlength : body.length = 32)
    (h : tx.Unlocks index spent algorithm signed (2 :: body) (2 :: body)) {input : Input}
    (hbody : SameBody tx' tx) (hinput : tx'.inputs[index]? = some input)
    (hpushed : input.script.PushesData [signed, 5 :: body]) :
    tx'.verifyInput index spent algorithm = .ok () := by
  obtain ⟨signature, key, digest, hsigned, hkey, hdigest, hvalid⟩ := h.valid
  rw [← PublicKey.ofBytes_evenTag hlength] at hkey
  rw [← signatureDigest_congr hbody] at hdigest
  exact verifyInput_eq_ok_iff.2 ⟨signed, 5 :: body, ⟨input, hinput, hpushed⟩, h.locked,
    ⟨signature, key, digest, hsigned, hkey, hdigest, hvalid⟩⟩

/-- The check accepts exactly the inputs that unlock the output as the script rule of the network
asks for it, but for keys that are pushed with the tag 5: there the hash is that of the key with the
tag 2. -/
theorem verifyInput_unlocks : tx.verifyInput index spent algorithm = .ok () ↔
    ∃ signed publicKey,
      (publicKey.head? ≠ some 5 ∧
        tx.Unlocks index spent algorithm signed publicKey publicKey) ∨
      ∃ body, publicKey = 5 :: body ∧
        tx.Unlocks index spent algorithm signed publicKey (2 :: body) := by
  rw [verifyInput_eq_ok_iff]
  refine exists_congr fun signed => exists_congr fun publicKey => ?_
  constructor
  · intro h
    by_cases htag : publicKey.head? = some 5
    · obtain ⟨body, rfl⟩ := List.head?_eq_some_iff.1 htag
      exact Or.inr ⟨body, rfl, h⟩
    · rw [PublicKey.retagged_of_head? htag] at h
      exact Or.inl ⟨htag, h⟩
  · rintro (⟨htag, h⟩ | ⟨body, rfl, h⟩)
    · rwa [PublicKey.retagged_of_head? htag]
    · exact h

end Transaction

namespace UnsignedTransaction

/-- The abscissa of the sample key. -/
def sampleAbscissa : Bytes :=
  Endian.toBig 32 0x5cbdf0646e5db4eaa398f365f2ea7a0e3d419b7e0330e39ce92bddedcac4f9bc

/-- The ordinate is even. -/
theorem sampleKey_toBytes : sampleKey.publicKey.toBytes = 2 :: sampleAbscissa := by
  decide +kernel

/-- A signature of the sample payment by the sample key. -/
def sampleSignature : Signature where
  r := 0x32d202dda9bfd42bfb89633970601f3963237d4c37ffac471fd8944ac99cb3b8
  s := 0x7dcac6c6e9002c7fcc9d601bd403dbda37ea27913f75591efacb122e02ed8a50
  r_pos := by decide
  r_lt := by decide
  s_pos := by decide
  s_lt := by decide

def sampleSigned : Bytes :=
  sampleSignature.toDer ++ [DigestAlgorithm.legacy.flag]

/-- The sample payment with its input unlocked, and the key pushed with some tag. -/
def sampleUnlocked (tag : UInt8) : Transaction :=
  withScripts samplePayment.transaction
    [⟨0x47 :: sampleSigned ++ 0x21 :: tag :: sampleAbscissa⟩]

theorem sampleSignature_valid :
    ((sampleUnlocked 2).signatureDigest 0 sampleOutput .legacy).map
      (sampleKey.publicKey.verify · sampleSignature) = .ok true := by
  have hbody : (sampleUnlocked 2).SameBody samplePayment.transaction := withScripts_sameBody rfl
  have hverified : sampleKey.publicKey.verify sampleDigest sampleSignature = true := by
    decide +kernel
  rw [Transaction.signatureDigest_congr hbody, samplePayment_digest]
  exact congrArg Except.ok hverified

theorem sampleUnlocked_pushed (tag : UInt8) :
    ∃ input, (sampleUnlocked tag).inputs[0]? = some input ∧
      input.script.PushesData [sampleSigned, tag :: sampleAbscissa] := by
  refine ⟨_, rfl, (Script.pushes_eq_ok_iff (by simp [sampleSigned])).1 ?_⟩
  have hsigned : Chunk.pushHeader sampleSigned.length = .ok [0x47] := by decide +kernel
  have hkey : Chunk.pushHeader (tag :: sampleAbscissa).length = .ok [0x21] := by
    rw [List.length_cons, sampleAbscissa, Endian.length_toBig]
    rfl
  have hbytes : 0x47 :: sampleSigned ++ 0x21 :: tag :: sampleAbscissa =
      [0x47] ++ (sampleSigned ++ ([0x21] ++ (tag :: sampleAbscissa ++ []))) := by
    simp
  rw [hbytes, Script.pushes_push hsigned, Script.pushes_push hkey, Script.pushes_nil]
  rfl

theorem sampleUnlocked_unlocks : (sampleUnlocked 2).Unlocks 0 sampleOutput .legacy sampleSigned
    (2 :: sampleAbscissa) (2 :: sampleAbscissa) where
  pushed := sampleUnlocked_pushed 2
  locked := by rw [← sampleKey_toBytes]; rfl
  valid := by
    have hkey := PublicKey.ofBytes_toBytes sampleKey.publicKey_isOnCurve
    rw [sampleKey_toBytes] at hkey
    have hvalid := sampleSignature_valid
    cases hdigest : (sampleUnlocked 2).signatureDigest 0 sampleOutput .legacy with
    | error e =>
        rw [hdigest] at hvalid
        cases hvalid
    | ok digest =>
        rw [hdigest] at hvalid
        exact ⟨sampleSignature, _, digest, rfl, hkey, rfl, Except.ok.inj hvalid⟩

/-- With the tag 2 the key is hashed as it is pushed. -/
theorem verifyInput_unlocks_sample :
    (sampleUnlocked 2).verifyInput 0 sampleOutput .legacy = .ok () ∧
      ∃ signed publicKey,
        (sampleUnlocked 2).Unlocks 0 sampleOutput .legacy signed publicKey publicKey := by
  have haccepted : (sampleUnlocked 2).verifyInput 0 sampleOutput .legacy = .ok () :=
    Transaction.verifyInput_eq_ok_iff.2 ⟨_, _, sampleUnlocked_unlocks⟩
  obtain ⟨signed, publicKey, ⟨-, h⟩ | ⟨body, rfl, h⟩⟩ :=
    Transaction.verifyInput_unlocks.1 haccepted
  · exact ⟨haccepted, signed, publicKey, h⟩
  · obtain ⟨-, hkey⟩ := h.eq_of_pushed (sampleUnlocked_pushed 2)
    cases hkey

theorem hash160_evenTag_ne :
    Hash.hash160 (2 :: sampleAbscissa) ≠ Hash.hash160 (5 :: sampleAbscissa) := by
  decide +kernel

/-- With the tag 5 the check accepts an input that the script rule of the network refuses: the hash
of the key as it is pushed is not the one the output is locked to. -/
theorem verifyInput_retags_sample :
    (sampleUnlocked 5).verifyInput 0 sampleOutput .legacy = .ok () ∧
      ¬ ∃ signed publicKey,
        (sampleUnlocked 5).Unlocks 0 sampleOutput .legacy signed publicKey publicKey := by
  obtain ⟨input, hinput, hpushed⟩ := sampleUnlocked_pushed 5
  constructor
  · have hbody : (sampleUnlocked 5).SameBody (sampleUnlocked 2) := ⟨rfl, rfl, rfl, rfl, rfl⟩
    exact Transaction.verifyInput_evenTag (Endian.length_toBig _ _) sampleUnlocked_unlocks hbody
      hinput hpushed
  · rintro ⟨signed, publicKey, h⟩
    obtain ⟨-, rfl⟩ := h.eq_of_pushed (sampleUnlocked_pushed 5)
    have hlocked := sampleUnlocked_unlocks.locked.symm.trans h.locked
    exact hash160_evenTag_ne (Script.payToKeyHash_inj hlocked)

end UnsignedTransaction

end CashWallet
