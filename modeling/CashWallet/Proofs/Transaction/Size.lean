import CashWallet.Proofs.Signature.Strict
import CashWallet.Proofs.Transaction.Commitment
import CashWallet.Proofs.Transaction.Control
import CashWallet.Proofs.Transaction.Fee

/-!
# The size of a signed transaction

A signature has one scalar that stays below half of the order, so it takes at most 71 bytes, and the
script that unlocks a payment to a key hash 107 with a compressed key and 139 with another one. An
input is therefore no longer than the model for payments to key hashes says if its key is
compressed, and at most 32 bytes longer if not. Besides these bytes the model leaves out what counts
take beyond one byte.
-/

namespace CashWallet

/-! ## Signatures and keys -/

namespace Signature

/-- Half of the order has a clear sign bit in 32 bytes. -/
theorem length_integerBody_low {n : Nat} (h0 : 0 < n) (h : n ≤ Curve.order / 2) :
    (integerBody n).length ≤ 32 := by
  have hlt : n < Nat.pow 256 32 := Nat.lt_of_le_of_lt h (by decide)
  obtain ⟨b, rest, -, hn, hlength, ⟨-, hbody⟩ | ⟨hsign, hbody⟩⟩ := integerBody_cases h0 hlt
  · rw [hbody, List.length_cons]
    exact hlength
  · -- a set sign bit in the first of 32 bytes would exceed half of the order
    have hb : 128 ≤ b.toNat := UInt8.le_iff_toNat_le.1 (UInt8.not_lt.1 hsign)
    have hlow := (foldl_bounds (256 * 0 + b.toNat) rest).1
    have hshort : rest.length ≠ 31 := by
      intro hfull
      rw [hfull] at hlow
      have hhalf : Curve.order / 2 < 128 * Nat.pow 256 31 := by decide
      have hle : 128 * Nat.pow 256 31 ≤ n := by
        rw [← hn]
        refine Nat.le_trans (Nat.mul_le_mul_right _ ?_) hlow
        omega
      omega
    rw [hbody, List.length_cons, List.length_cons]
    omega

theorem length_toDer_low {sig : Signature} (h : sig.isLowS = true) : sig.toDer.length ≤ 71 := by
  have hr := sig.length_bodies.1.2
  have hs := length_integerBody_low sig.s_pos (of_decide_eq_true h)
  simp only [toDer, length_element, List.length_append]
  omega

end Signature

theorem PrivateKey.isLowS_sign {key : PrivateKey} {digest : Bytes} {sig : Signature}
    (h : key.sign digest = .ok sig) : sig.isLowS = true := by
  obtain ⟨nonce, h0, hlt, hsig⟩ := sign_eq_ok h
  exact (signWithNonce?_eq_some h0 hlt hsig).1

/-- The bytes that a key takes beyond its compressed form. -/
def PrivateKey.surplus (key : PrivateKey) : Nat :=
  if key.compressed then 0 else 32

theorem PrivateKey.length_publicKey (key : PrivateKey) :
    key.publicKey.toBytes.length = 33 + key.surplus := by
  rw [PublicKey.toBytes, publicKey, surplus]
  split <;> simp

/-! ## Scripts -/

theorem Chunk.length_pushHeader_short {n : Nat} {header : Bytes} (hn : n ≤ 0x4b)
    (h : pushHeader n = .ok header) : header.length = 1 := by
  rw [pushHeader, if_pos hn] at h
  cases h
  rfl

theorem Script.length_appendPush_short {s s' : Script} {data : Bytes} (hdata : data.length ≤ 0x4b)
    (h : s.appendPush data = .ok s') : s'.bytes.length = s.bytes.length + 1 + data.length := by
  obtain ⟨header, hheader, rfl⟩ := appendPush_eq_ok_iff.1 h
  have hlength := Chunk.length_pushHeader_short hdata hheader
  simp only [List.length_append, hlength]
  omega

namespace Transaction

/-- Two pushes of one byte of length, a type byte, the signature and the key. -/
theorem exists_length_unlock {tx : Transaction} {index : Nat} {spent : Output}
    {algorithm : DigestAlgorithm} {key : PrivateKey} {script : Script}
    (h : tx.unlock index spent algorithm key = .ok script) :
    ∃ digest signature, tx.signatureDigest index spent algorithm = .ok digest ∧
      key.sign digest = .ok signature ∧ signature.toDer.length ≤ 71 ∧
      script.bytes.length = 36 + signature.toDer.length + key.surplus := by
  obtain ⟨digest, signature, first, hdigest, hsignature, hfirst, hscript⟩ := unlock_eq_ok_iff.1 h
  have hlow := Signature.length_toDer_low (PrivateKey.isLowS_sign hsignature)
  have hsurplus : key.surplus ≤ 32 := by
    rw [PrivateKey.surplus]
    split <;> decide
  have hkey := key.length_publicKey
  have hflagged : (signature.toDer ++ [algorithm.flag]).length = signature.toDer.length + 1 :=
    List.length_append
  have h₁ := Script.length_appendPush_short (by omega) hfirst
  have h₂ := Script.length_appendPush_short (by omega) hscript
  have hempty : Script.empty.bytes.length = 0 := rfl
  exact ⟨digest, signature, hdigest, hsignature, hlow, by omega⟩

end Transaction

/-! ## The wire form -/

theorem CompactSize.size_of_lt {n : Nat} (h : n < 0xfd) : size (.ofNat n) = 1 := by
  have hn : (UInt64.ofNat n).toNat = n :=
    UInt64.toNat_ofNat_of_lt' (Nat.lt_trans h (by decide))
  rw [size, if_pos (UInt64.lt_iff_toNat_lt.2 (by rw [hn]; exact h))]

theorem Input.length_encode (i : Input) :
    i.encode.length =
      40 + CompactSize.size (.ofNat i.script.bytes.length) + i.script.bytes.length := by
  simp only [encode, Field.encodeVarBytes, List.length_append, Outpoint.length_encode,
    CompactSize.length_encode, Endian.length_toLittle]
  omega

theorem Output.length_encode (o : Output) :
    o.encode.length =
      8 + CompactSize.size (.ofNat o.script.bytes.length) + o.script.bytes.length := by
  simp only [encode, Field.encodeVarBytes, List.length_append, CompactSize.length_encode,
    Endian.length_toLittle]
  omega

namespace Transaction

theorem size_eq (tx : Transaction) :
    tx.size = 8 + CompactSize.size (.ofNat tx.inputs.length) +
      CompactSize.size (.ofNat tx.outputs.length) +
        (tx.inputs.map fun i => i.encode.length).sum +
          (tx.outputs.map fun o => o.encode.length).sum := by
  simp only [size, encode, List.length_append, List.length_flatMap, CompactSize.length_encode,
    Endian.length_toLittle]
  omega

/-- Outputs that pay to key hashes take 34 bytes each. -/
theorem sum_length_outputs {tx : Transaction}
    (h : ∀ o ∈ tx.outputs, o.script.isPayToKeyHash = true) :
    (tx.outputs.map fun o => o.encode.length).sum = 34 * tx.outputs.length := by
  have heach : ∀ n ∈ tx.outputs.map fun o => o.encode.length, n = 34 := by
    intro n hn
    obtain ⟨o, ho, rfl⟩ := List.mem_map.1 hn
    have hscript := (Script.isPayToKeyHash_iff_laidOut.1 (h o ho)).length
    rw [Output.length_encode, CompactSize.size_of_lt (by omega), hscript]
  rw [List.eq_replicate_of_mem heach, List.sum_replicate_nat, List.length_map, Nat.mul_comm]

end Transaction

/-! ## The model -/

namespace SizeModel

theorem toNat_estimate_payToKeyHash (n m : Nat) :
    (payToKeyHash.estimate n m).toNat = min (10 + 148 * n + 34 * m) maxAmount :=
  toNat_estimate payToKeyHash n m

/-- What an estimate leaves out is missing from the fee at the rate it is charged at. -/
theorem satMul_le_fee {m : SizeModel} {inputs outputs size rest : Nat}
    (h : min size maxAmount ≤ (m.estimate inputs outputs).toNat + rest) (rate : UInt64) :
    satMul rate size ≤ satAdd (m.fee rate inputs outputs) (satMul rate rest) := by
  rw [UInt64.le_iff_toNat_le]
  simp only [fee, toNat_satAdd, toNat_satMul]
  rcases Nat.eq_zero_or_pos rate.toNat with hrate | hrate
  · simp [hrate]
  · have hscaled := Nat.mul_le_mul_left rate.toNat h
    rw [Nat.mul_add] at hscaled
    rcases Nat.le_total size maxAmount with hsize | hsize
    · rw [Nat.min_eq_left hsize] at hscaled
      omega
    · rw [Nat.min_eq_right hsize] at hscaled
      have hmax : maxAmount ≤ rate.toNat * maxAmount := Nat.le_mul_of_pos_left _ hrate
      omega

end SizeModel

/-! ## Signed transactions -/

namespace UnsignedTransaction

variable {u : UnsignedTransaction} {s : SignedTransaction} {keys : List PrivateKey}
  {algorithm : DigestAlgorithm}

/-- A listed key that is not compressed controls the output. -/
def HeldLong (keys : List PrivateKey) (spent : Output) : Prop :=
  ∃ key ∈ keys, key.Controls spent ∧ key.compressed = false

instance (keys : List PrivateKey) : DecidablePred (HeldLong keys) :=
  fun spent => inferInstanceAs (Decidable (∃ key ∈ keys, key.Controls spent ∧ _))

/-- What the model for payments to key hashes leaves out: keys that are not compressed, and counts
of more than one byte. -/
def shortfall (u : UnsignedTransaction) (keys : List PrivateKey) : Nat :=
  32 * u.spent.countP (HeldLong keys) +
    (CompactSize.size (.ofNat u.transaction.inputs.length) - 1) +
      (CompactSize.size (.ofNat u.transaction.outputs.length) - 1)

theorem length_input_le (h : u.sign keys algorithm = .ok s) {i : Nat} {input : Input}
    {spent : Output} (hinput : s.transaction.inputs[i]? = some input)
    (hspent : u.spent[i]? = some spent) :
    input.encode.length ≤ 148 + if HeldLong keys spent then 32 else 0 := by
  obtain ⟨scripts, -, hall, rfl⟩ := sign_eq_ok_iff.1 h
  obtain ⟨script, hscript, hok⟩ := hall i spent hspent
  obtain ⟨key, hkey, hcontrols, hunlock⟩ := exists_controls_of_scriptFor hok
  obtain ⟨before, hbefore⟩ := exists_input hspent
  rw [getElem?_withScripts hbefore hscript, Option.some_inj] at hinput
  have hsurplus : key.surplus ≤ if HeldLong keys spent then 32 else 0 := by
    rw [PrivateKey.surplus]
    split
    · exact Nat.zero_le _
    · next hlong => rw [if_pos ⟨key, hkey, hcontrols, Bool.eq_false_of_not_eq_true hlong⟩]
  obtain ⟨-, signature, -, -, hlow, hlength⟩ := Transaction.exists_length_unlock hunlock
  have hsize : (if HeldLong keys spent then 32 else 0) ≤ 32 := by
    split <;> decide
  rw [← hinput, Input.length_encode, CompactSize.size_of_lt (by dsimp only; omega)]
  dsimp only
  omega

theorem sum_surcharged (keys : List PrivateKey) (spent : List Output) :
    (spent.map fun o => 148 + if HeldLong keys o then 32 else 0).sum =
      148 * spent.length + 32 * spent.countP (HeldLong keys) := by
  induction spent with
  | nil => rfl
  | cons o rest ih =>
      rw [List.map_cons, List.sum_cons, ih, List.length_cons, List.countP_cons]
      simp only [decide_eq_true_eq]
      split <;> omega

/-- Inputs take 148 bytes each, and 32 more where a key that is not compressed unlocks them. -/
theorem sum_length_inputs_le (h : u.sign keys algorithm = .ok s) :
    (s.transaction.inputs.map fun i => i.encode.length).sum ≤
      148 * s.transaction.inputs.length + 32 * u.spent.countP (HeldLong keys) := by
  have hlength : s.transaction.inputs.length = u.spent.length := by
    rw [u.length_spent, (sign_sameBody h).1.length_inputs]
  have heach : List.Forall₂ (· ≤ ·) (s.transaction.inputs.map fun i => i.encode.length)
      (u.spent.map fun spent => 148 + if HeldLong keys spent then 32 else 0) := by
    rw [List.forall₂_map_left_iff, List.forall₂_map_right_iff, List.forall₂_iff_get]
    refine ⟨hlength, fun i hi hi' => ?_⟩
    exact length_input_le h (List.getElem?_eq_getElem hi) (List.getElem?_eq_getElem hi')
  rw [hlength, ← sum_surcharged]
  exact heach.sum_le_sum

/-- A signed transaction exceeds what the model says by no more than the model leaves out. -/
theorem size_le (h : u.sign keys algorithm = .ok s)
    (hpaid : ∀ o ∈ u.transaction.outputs, o.script.isPayToKeyHash = true) :
    s.transaction.size ≤ 10 + 148 * s.transaction.inputs.length +
      34 * s.transaction.outputs.length + u.shortfall keys := by
  have hbody := (sign_sameBody h).1
  have hinputs := sum_length_inputs_le h
  have houtputs : (s.transaction.outputs.map fun o => o.encode.length).sum =
      34 * s.transaction.outputs.length :=
    Transaction.sum_length_outputs (hbody.outputs ▸ hpaid)
  rw [shortfall, ← hbody.length_inputs, ← hbody.outputs, Transaction.size_eq]
  omega

/-- With compressed keys and counts of one byte nothing is left out. -/
theorem shortfall_eq_zero (hkeys : ∀ key ∈ keys, u.Concerns key → key.compressed = true)
    (hinputs : u.transaction.inputs.length < 0xfd)
    (houtputs : u.transaction.outputs.length < 0xfd) : u.shortfall keys = 0 := by
  have hshort : u.spent.countP (HeldLong keys) = 0 := by
    rw [List.countP_eq_zero]
    intro spent hspent hlong
    obtain ⟨key, hkey, hcontrols, huncompressed⟩ := of_decide_eq_true hlong
    rw [hkeys key hkey ⟨spent, hspent, hcontrols⟩] at huncompressed
    cases huncompressed
  rw [shortfall, hshort, CompactSize.size_of_lt hinputs, CompactSize.size_of_lt houtputs]

/-- A transaction between key hashes is no longer than the model for it says, except for 32 bytes
for each input that a key in its longer form unlocks and for what the counts take beyond one byte
each. With compressed keys and counts of one byte the model leaves out nothing. A fee for this size
pays for each byte, with the same exceptions, as long as the rate times the size is an amount: both
sides are compared after they are cut off at the greatest amount. -/
theorem sign_estimated (u : UnsignedTransaction) (keys : List PrivateKey)
    (algorithm : DigestAlgorithm) (s : SignedTransaction) (h : u.sign keys algorithm = .ok s)
    (hpaid : ∀ o ∈ u.transaction.outputs, o.script.isPayToKeyHash = true) :
    let n := s.transaction.inputs.length
    let m := s.transaction.outputs.length
    min s.transaction.size maxAmount ≤
        (SizeModel.payToKeyHash.estimate n m).toNat + u.shortfall keys ∧
      (∀ rate, satMul rate s.transaction.size ≤
        satAdd (SizeModel.payToKeyHash.fee rate n m) (satMul rate (u.shortfall keys))) ∧
      ((∀ key ∈ keys, u.Concerns key → key.compressed = true) → n < 0xfd → m < 0xfd →
        s.transaction.size ≤ (SizeModel.payToKeyHash.estimate n m).toNat ∧
          ∀ rate, satMul rate s.transaction.size ≤ SizeModel.payToKeyHash.fee rate n m) := by
  intro n m
  have hsize : s.transaction.size ≤ 10 + 148 * n + 34 * m + u.shortfall keys := size_le h hpaid
  have hestimate := SizeModel.toNat_estimate_payToKeyHash n m
  have hclamped : min s.transaction.size maxAmount ≤
      (SizeModel.payToKeyHash.estimate n m).toNat + u.shortfall keys := by
    omega
  refine ⟨hclamped, SizeModel.satMul_le_fee hclamped, ?_⟩
  intro hkeys hn hm
  have hbody := (sign_sameBody h).1
  have hnone := shortfall_eq_zero hkeys (hbody.length_inputs ▸ hn) (hbody.outputs ▸ hm)
  have hrange : 10 + 148 * n + 34 * m ≤ maxAmount :=
    Nat.le_trans (by omega) (by decide : 10 + 148 * 0xfd + 34 * 0xfd ≤ maxAmount)
  refine ⟨by omega, fun rate => ?_⟩
  have hfee := SizeModel.satMul_le_fee hclamped rate
  rw [hnone, UInt64.le_iff_toNat_le] at hfee
  rw [UInt64.le_iff_toNat_le]
  simpa using hfee

theorem sign_estimated_sample :
    ∃ s, samplePayment.sign [sampleKey] .legacy = .ok s ∧
      s.transaction.size ≤ (SizeModel.payToKeyHash.estimate 1 1).toNat := by
  have hcontrolled : samplePayment.ControlledBy [sampleKey] := by
    intro spent hspent
    cases List.mem_singleton.1 hspent
    exact ⟨sampleKey, List.mem_singleton_self _, rfl⟩
  obtain ⟨s, hs⟩ := (exists_sign_iff samplePayment_yieldsSignatures).2 hcontrolled
  have hpaid : ∀ o ∈ samplePayment.transaction.outputs, o.script.isPayToKeyHash = true := by
    intro o ho
    cases List.mem_singleton.1 ho
    exact Script.isPayToKeyHash_hash160 _
  have hbody := (sign_sameBody hs).1
  have hinputs : s.transaction.inputs.length = 1 := hbody.length_inputs
  have houtputs : s.transaction.outputs.length = 1 := congrArg List.length hbody.outputs
  obtain ⟨-, -, hsize⟩ := sign_estimated samplePayment [sampleKey] .legacy s hs hpaid
  rw [hinputs, houtputs] at hsize
  exact ⟨s, hs, (hsize (by simp [sampleKey]) (by decide) (by decide)).1⟩

/-- The sample key in its longer form. -/
def longKey : PrivateKey := { sampleKey with compressed := false }

/-- A payment with change by the longer key, at the rate of one satoshi for each byte. -/
def longPayment : UnsignedTransaction where
  transaction :=
    { version := 1
      inputs := [.unsigned ⟨TxId.ofData [], 0⟩]
      outputs := [⟨1000, .payToKeyHash longKey.publicKey.hash160⟩,
        ⟨98774, .payToKeyHash longKey.publicKey.hash160⟩]
      lockTime := 0 }
  spent := [⟨100000, .payToKeyHash longKey.publicKey.hash160⟩]
  length_spent := rfl

/-- The digest that the payment is signed over. -/
def longDigest : Bytes :=
  Endian.toBig 32 0x7ea1c44b426454edd71e7f08791cb65f70c25e76cee26e540e1aed8e41ef44f1

/-- The output that the payment spends. -/
def longOutput : Output :=
  ⟨100000, .payToKeyHash longKey.publicKey.hash160⟩

theorem longPayment_digest :
    longPayment.transaction.signatureDigest 0 longOutput .legacy = .ok longDigest :=
  Results.eq_ok_of_toOption (by decide +kernel)

theorem longPayment_nonce : Nonce.forDigest? longKey.scalar longDigest = some
    0xe8abce155ee16da4d3d8d6fc1d79b524596ed2e786400ddc4bbd3e9da289df90 :=
  Nonce.forDigest?_of_first
    (Endian.toBig 32 0x52b452a1325ef8f86ce9fb81d7c1562f58dcb213b346b179b81ed3dafd8ff3fc)
    (Endian.toBig 32 0xd6486026a477151712b1c3587743ea48764b40f1854b7957dbcbe82954a10d36)
    (Endian.toBig 32 0xf9c1cf4bfd92c2f5023bf9ab592ba0d3e8de954da7db67cbb8e7a8d1b4442c2a)
    (Endian.toBig 32 0x9b6964fd96088a986e080fb7eda2e0e90527dd60a423b24583a3769c694dffbd)
    (Endian.toBig 32 0xe8abce155ee16da4d3d8d6fc1d79b524596ed2e786400ddc4bbd3e9da289df90)
    (by decide +kernel) (by decide +kernel) (by decide +kernel) (by decide +kernel)
    (by decide +kernel) (by decide)

theorem longPayment_signature :
    ∃ signature, longKey.sign longDigest = .ok signature ∧ signature.toDer.length = 70 := by
  have hsigned : ((some 0xe8abce155ee16da4d3d8d6fc1d79b524596ed2e786400ddc4bbd3e9da289df90).bind
      (longKey.signWithNonce? longDigest)).map (fun signature => signature.toDer.length) =
        some 70 := by
    decide +kernel
  obtain ⟨signature, hsignature, hlength⟩ := Option.map_eq_some_iff.1 hsigned
  refine ⟨signature, ?_, hlength⟩
  rw [PrivateKey.sign, longPayment_nonce, hsignature]
  rfl

theorem longPayment_paid :
    ∀ o ∈ longPayment.transaction.outputs, o.script.isPayToKeyHash = true := by
  intro o ho
  obtain rfl | ho := List.mem_cons.1 ho
  · exact Script.isPayToKeyHash_hash160 _
  · cases List.mem_singleton.1 ho
    exact Script.isPayToKeyHash_hash160 _

theorem longPayment_size {s : SignedTransaction} (h : longPayment.sign [longKey] .legacy = .ok s) :
    s.transaction.size = 257 := by
  obtain ⟨scripts, hcount, hall, rfl⟩ := sign_eq_ok_iff.1 h
  obtain ⟨script, rfl⟩ := List.length_eq_one_iff.1 hcount
  obtain ⟨_, hscript, hok⟩ := hall 0 longOutput rfl
  cases Option.some_inj.1 hscript
  obtain ⟨key, hkey, -, hunlock⟩ := exists_controls_of_scriptFor hok
  cases List.mem_singleton.1 hkey
  obtain ⟨digest, signature, hdigest, hsignature, -, hlength⟩ :=
    Transaction.exists_length_unlock hunlock
  obtain ⟨signature', hsignature', hder⟩ := longPayment_signature
  cases hdigest.symm.trans longPayment_digest
  cases hsignature.symm.trans hsignature'
  have hsurplus : longKey.surplus = 32 := rfl
  rw [hder, hsurplus] at hlength
  have hinputs : (withScripts longPayment.transaction [script]).inputs =
      [{ Input.unsigned ⟨TxId.ofData [], 0⟩ with script }] := rfl
  have houtputs : ((withScripts longPayment.transaction [script]).outputs.map
      fun o => o.encode.length).sum = 34 * 2 := Transaction.sum_length_outputs longPayment_paid
  rw [Transaction.size_eq, houtputs, hinputs, List.map_singleton, List.sum_singleton,
    Input.length_encode, hlength]
  rfl

/-- The key takes 32 bytes that the model has no place for. -/
theorem sign_estimated_long :
    ∃ s, longPayment.sign [longKey] .legacy = .ok s ∧
      (∀ o ∈ longPayment.transaction.outputs, o.script.isPayToKeyHash = true) ∧
      (SizeModel.payToKeyHash.estimate s.transaction.inputs.length
        s.transaction.outputs.length).toNat < s.transaction.size ∧
      SizeModel.payToKeyHash.fee 1 s.transaction.inputs.length s.transaction.outputs.length <
        satMul 1 s.transaction.size := by
  have hyields : longPayment.YieldsSignatures [longKey] .legacy := by
    obtain ⟨signature, hsignature, -⟩ := longPayment_signature
    exact yieldsSignatures_singleton rfl longPayment_digest ⟨signature, hsignature⟩
  have hcontrolled : longPayment.ControlledBy [longKey] := by
    intro spent hspent
    cases List.mem_singleton.1 hspent
    exact ⟨longKey, List.mem_singleton_self _, rfl⟩
  obtain ⟨s, hs⟩ := (exists_sign_iff hyields).2 hcontrolled
  have hbody := (sign_sameBody hs).1
  have hinputs : s.transaction.inputs.length = 1 := hbody.length_inputs
  have houtputs : s.transaction.outputs.length = 2 := congrArg List.length hbody.outputs
  refine ⟨s, hs, longPayment_paid, ?_⟩
  rw [hinputs, houtputs, longPayment_size hs]
  decide

end UnsignedTransaction

end CashWallet
