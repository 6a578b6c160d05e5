import CashWallet.Proofs.Address
import CashWallet.Proofs.Script.Grammar
import Mathlib.Tactic.TFAE

/-!
# Payments to a key hash

A payment to a key hash is told by the bytes at its places, by its chunks, or by an address that it
is the lock of. Each of them picks out the same scripts, the template filled with twenty bytes, and
finds these twenty bytes. A script that tells the length of the hash in bytes of its own is none of
them, though it is cut into the same operations.
-/

namespace CashWallet

namespace Script

variable {s : Script} {hash hash' : Bytes}

theorem payToKeyHash_inj (h : payToKeyHash hash = payToKeyHash hash') : hash = hash' := by
  simpa [payToKeyHash] using h

theorem length_payToKeyHash (h : hash.length = 20) : (payToKeyHash hash).bytes.length = 25 := by
  simp [payToKeyHash, h]

/-- A key hash is found in the template filled with it, and nowhere else. -/
theorem keyHash_eq_ok_iff : s.keyHash = .ok hash ↔ hash.length = 20 ∧ s = payToKeyHash hash := by
  unfold keyHash
  constructor
  · intro h
    split at h
    · next hform =>
        simp only [isPayToKeyHash, Bool.and_eq_true, beq_iff_eq] at hform
        obtain ⟨⟨hlength, hfirst⟩, hlast⟩ := hform
        have hhash := Except.ok.inj h
        refine ⟨by rw [← hhash]; simp [hlength], ?_⟩
        obtain ⟨bs⟩ := s
        rw [payToKeyHash, ← hhash, ← hfirst, ← hlast, Script.mk.injEq, List.append_assoc]
        rw [← List.drop_drop (i := 20) (j := 3), List.take_append_drop, List.take_append_drop]
    · cases h
  · rintro ⟨hlength, rfl⟩
    have hfirst : (payToKeyHash hash).bytes.take 3 = [Opcode.duplicate, Opcode.hash160, 20] := rfl
    have hrest : (payToKeyHash hash).bytes.drop 3 =
        hash ++ [Opcode.equalVerify, Opcode.checkSig] := rfl
    have hlast : (payToKeyHash hash).bytes.drop 23 = [Opcode.equalVerify, Opcode.checkSig] :=
      List.drop_left' (by simp [hlength])
    have hform : (payToKeyHash hash).isPayToKeyHash = true := by
      rw [isPayToKeyHash, hfirst, hlast]
      simp [length_payToKeyHash hlength]
    rw [if_pos hform, hrest, List.take_left' hlength]

theorem exists_keyHash_iff : (∃ hash, s.keyHash = .ok hash) ↔ s.isPayToKeyHash = true := by
  unfold keyHash
  split
  · next hform => exact ⟨fun _ => hform, fun _ => ⟨_, rfl⟩⟩
  · next hform => exact ⟨nofun, fun h => absurd h hform⟩

theorem isPayToKeyHash_hash160 (key : PublicKey) :
    (payToKeyHash key.hash160).isPayToKeyHash = true :=
  exists_keyHash_iff.1 ⟨_, keyHash_eq_ok_iff.2 ⟨key.length_hash160, rfl⟩⟩

/-! ## Places -/

/-- The bytes of a script lie as those of a payment to a key hash. -/
structure LaidOut (s : Script) : Prop where
  length : s.bytes.length = 25
  duplicate : s.bytes[0]? = some Opcode.duplicate
  hash160 : s.bytes[1]? = some Opcode.hash160
  push : s.bytes[2]? = some 20
  equalVerify : s.bytes[23]? = some Opcode.equalVerify
  checkSig : s.bytes[24]? = some Opcode.checkSig

theorem take_three_eq_iff {bs : Bytes} {a b c : UInt8} :
    bs.take 3 = [a, b, c] ↔ bs[0]? = some a ∧ bs[1]? = some b ∧ bs[2]? = some c := by
  rcases bs with _ | ⟨a', _ | ⟨b', _ | ⟨c', rest⟩⟩⟩ <;> simp

theorem drop_eq_two_iff {bs : Bytes} {n : Nat} {a b : UInt8} (h : bs.length = n + 2) :
    bs.drop n = [a, b] ↔ bs[n]? = some a ∧ bs[n + 1]? = some b := by
  obtain ⟨a', b', hback⟩ : ∃ a' b', bs.drop n = [a', b'] :=
    List.length_eq_two.1 (by rw [List.length_drop, h, Nat.add_sub_cancel_left])
  have hfirst : bs[n]? = (bs.drop n)[0]? := by rw [List.getElem?_drop, Nat.add_zero]
  have hsecond : bs[n + 1]? = (bs.drop n)[1]? := by rw [List.getElem?_drop]
  rw [hfirst, hsecond, hback]
  simp

theorem isPayToKeyHash_iff_laidOut : s.isPayToKeyHash = true ↔ s.LaidOut := by
  simp only [isPayToKeyHash, Bool.and_eq_true, beq_iff_eq, take_three_eq_iff]
  constructor
  · rintro ⟨⟨hlength, hduplicate, hhash160, hpush⟩, hlast⟩
    obtain ⟨hequalVerify, hcheckSig⟩ := (drop_eq_two_iff hlength).1 hlast
    exact ⟨hlength, hduplicate, hhash160, hpush, hequalVerify, hcheckSig⟩
  · intro h
    have hlast := (drop_eq_two_iff h.length).2 ⟨h.equalVerify, h.checkSig⟩
    exact ⟨⟨h.length, h.duplicate, h.hash160, h.push⟩, hlast⟩

/-! ## Chunks -/

/-- The chunks of a payment to a key hash. The opcode of the push is the length of the hash. -/
def paymentChunks (hash : Bytes) : List Chunk :=
  [⟨Opcode.duplicate, none⟩, ⟨Opcode.hash160, none⟩, ⟨20, some hash⟩, ⟨Opcode.equalVerify, none⟩,
    ⟨Opcode.checkSig, none⟩]

theorem flatMap_encode_paymentChunks (hash : Bytes) :
    (paymentChunks hash).flatMap Chunk.encode = (payToKeyHash hash).bytes := by
  simp only [paymentChunks, payToKeyHash, List.flatMap_cons, List.flatMap_nil]
  rfl

theorem elements_paymentChunks (h : hash.length = 20) :
    List.Forall₂ Chunk.Element (paymentChunks hash)
      [[Opcode.duplicate], [Opcode.hash160], 20 :: hash, [Opcode.equalVerify],
        [Opcode.checkSig]] := by
  apply List.Forall₂.cons (.opcode _ (by decide))
  apply List.Forall₂.cons (.opcode _ (by decide))
  apply List.Forall₂.cons (.direct _ _ (by omega) h.symm)
  apply List.Forall₂.cons (.opcode _ (by decide))
  exact .cons (.opcode _ (by decide)) .nil

/-- The template filled with a key hash is cut into these chunks, and nothing else is. -/
theorem chunks_eq_ok_iff :
    s.chunks = .ok (paymentChunks hash) ↔ hash.length = 20 ∧ s = payToKeyHash hash := by
  constructor
  · intro h
    have helements := Chunk.elements_of_decodeAll h
    simp only [paymentChunks, List.map_cons, List.forall₂_cons] at helements
    obtain ⟨-, -, hpush, -⟩ := helements
    have hbytes : s.bytes = (payToKeyHash hash).bytes := by
      rw [← flatMap_encode_paymentChunks, (Chunk.decodeAll_eq_ok h).1]
    exact ⟨hpush.length_of_direct rfl, congrArg Script.mk hbytes⟩
  · rintro ⟨hlength, rfl⟩
    exact Chunk.decodeAll_of_elements (elements_paymentChunks hlength)

end Script

/-! ## Addresses -/

namespace Address

theorem keyHash_lock (a : Address) : a.lock.keyHash = .ok a.keyHash :=
  Script.keyHash_eq_ok_iff.2 ⟨a.length_keyHash, rfl⟩

theorem length_lock (a : Address) : a.lock.bytes.length = 25 :=
  Script.length_payToKeyHash a.length_keyHash

theorem lock_eq_iff {a b : Address} : a.lock = b.lock ↔ a.keyHash = b.keyHash :=
  ⟨Script.payToKeyHash_inj, congrArg Script.payToKeyHash⟩

/-- The template filled with a key hash is the lock of an address on each network. -/
theorem exists_lock_eq {s : Script} {hash : Bytes} (h : s.keyHash = .ok hash) (network : Network) :
    ∃ a, ofString a.text = .ok a ∧ a.network = network ∧ s = a.lock := by
  obtain ⟨hlength, hfilled⟩ := Script.keyHash_eq_ok_iff.1 h
  exact ⟨ofKeyHash hash network hlength, ofString_ofKeyHash hash network hlength, rfl, hfilled⟩

end Address

namespace Script

/-- A script has the form of a payment to a key hash, lies as one, is the lock of an address, is the
lock of an address of each network that is read from its text, is cut into the chunks of a payment,
or has a key hash, all or none of these. The key hash that is read, the one of the address and the
one that is pushed are the same twenty bytes, and two addresses have one lock exactly if they have
one key hash. -/
theorem paymentForms_agree (s : Script) :
    [s.isPayToKeyHash = true,
      s.LaidOut,
      ∃ a : Address, s = a.lock,
      ∀ network, ∃ a, Address.ofString a.text = .ok a ∧ a.network = network ∧ s = a.lock,
      ∃ hash : Bytes, hash.length = 20 ∧ s.chunks = .ok (paymentChunks hash),
      ∃ hash, s.keyHash = .ok hash].TFAE ∧
    (∀ (a : Address) (pushed read : Bytes), s = a.lock → s.chunks = .ok (paymentChunks pushed) →
      s.keyHash = .ok read → read = a.keyHash ∧ pushed = a.keyHash ∧ a.keyHash.length = 20) ∧
    ∀ a b : Address, a.lock = b.lock ↔ a.keyHash = b.keyHash := by
  refine ⟨?_, ?_, fun a b => Address.lock_eq_iff⟩
  · tfae_have 1 ↔ 2 := isPayToKeyHash_iff_laidOut
    tfae_have 6 ↔ 1 := exists_keyHash_iff
    tfae_have 6 → 4 := fun ⟨_, h⟩ => Address.exists_lock_eq h
    tfae_have 4 → 3 := by
      intro h
      obtain ⟨a, -, -, hlock⟩ := h .mainnet
      exact ⟨a, hlock⟩
    tfae_have 3 → 5 := by
      rintro ⟨a, rfl⟩
      exact ⟨a.keyHash, a.length_keyHash, chunks_eq_ok_iff.2 ⟨a.length_keyHash, rfl⟩⟩
    tfae_have 5 → 6 := by
      rintro ⟨hash, -, h⟩
      exact ⟨hash, keyHash_eq_ok_iff.2 (chunks_eq_ok_iff.1 h)⟩
    tfae_finish
  · rintro a pushed read rfl hchunks hread
    have hpushed := payToKeyHash_inj (chunks_eq_ok_iff.1 hchunks).2
    rw [a.keyHash_lock] at hread
    exact ⟨(Except.ok.inj hread).symm, hpushed.symm, a.length_keyHash⟩

/-- The same operations with the length of the hash in a byte of its own. -/
example : (Script.mk ([0x76, 0xa9, 0x4c, 20] ++ List.replicate 20 7 ++ [0x88, 0xac])).isPayToKeyHash =
    false := by
  decide

/-- One lock of addresses of both networks. -/
theorem paymentForms_agree_networks :
    ∃ a b : Address, a.network = .mainnet ∧ b.network = .testnet ∧
      a.lock = payToKeyHash (List.replicate 20 7) ∧ a.lock = b.lock ∧ a.keyHash = b.keyHash ∧
      a.lock.chunks = .ok (paymentChunks (List.replicate 20 7)) ∧
      a.lock.keyHash = .ok (List.replicate 20 7) ∧
      List.replicate 20 7 = a.keyHash ∧ a.keyHash.length = 20 := by
  obtain ⟨hforms, hsame, hlocks⟩ := paymentForms_agree (payToKeyHash (List.replicate 20 7))
  have hnetworks := (hforms.out 0 3).1 (by decide)
  obtain ⟨a, -, ha, halock⟩ := hnetworks .mainnet
  obtain ⟨b, -, hb, hblock⟩ := hnetworks .testnet
  have hlock : a.lock = b.lock := halock.symm.trans hblock
  have hchunks : (payToKeyHash (List.replicate 20 7)).chunks =
      .ok (paymentChunks (List.replicate 20 7)) := chunks_eq_ok_iff.2 ⟨by decide, rfl⟩
  have hread : (payToKeyHash (List.replicate 20 7)).keyHash = .ok (List.replicate 20 7) := by decide
  obtain ⟨-, hpushed, hlength⟩ := hsame a _ _ halock hchunks hread
  rw [halock] at hchunks hread
  exact ⟨a, b, ha, hb, halock.symm, hlock, (hlocks a b).1 hlock, hchunks, hread, hpushed, hlength⟩

end Script

end CashWallet
