import CashWallet.Address
import CashWallet.Proofs.Text.Base58

/-!
# Each address has one text

A text is accepted exactly if it is the text that its key hash and its network are written in. So
addresses, which are compared by their texts, are equal exactly if they pay to the same key hash on
the same network.
-/

namespace CashWallet

theorem Network.ofVersion?_eq_some_iff {version : UInt8} {network : Network} :
    ofVersion? version = some network ↔ version = network.addressVersion := by
  constructor
  · intro h
    unfold ofVersion? at h
    split at h
    · next hversion =>
        cases h
        exact hversion
    · split at h
      · next hversion =>
          cases h
          exact hversion
      · cases h
  · rintro rfl
    cases network <;> rfl

namespace Address

theorem length_payload {keyHash : Bytes} (h : keyHash.length = 20) (network : Network) :
    (payload keyHash network).length = 21 := by
  rw [payload, List.length_cons, h]

/-- The version of a network and the key hash are all that stands before the checksum. -/
theorem take_eq_payload {decoded : Bytes} {network : Network} (h : decoded.length = 25)
    (hnetwork : Network.ofVersion? (decoded.headD 0) = some network) :
    decoded.take 21 = payload ((decoded.drop 1).take 20) network := by
  rw [payload, ← Network.ofVersion?_eq_some_iff.1 hnetwork]
  cases decoded with
  | nil => cases h
  | cons version rest => rfl

/-- A text is accepted exactly if it is the text of the address that is read from it. -/
theorem ofString_eq_ok_iff {text : String} {a : Address} :
    ofString text = .ok a ↔ a.text = text ∧ text = encode a.keyHash a.network := by
  constructor
  · intro h
    unfold ofString at h
    split at h
    · cases h
    · next decoded hdecoded =>
        split at h
        · next hlength =>
            split at h
            · next hchecksum =>
                dsimp only at h
                split at h
                · next network hnetwork =>
                    cases h
                    refine ⟨rfl, ?_⟩
                    rw [encode, ← take_eq_payload hlength hnetwork, ← hchecksum,
                      List.take_append_drop]
                    exact Base58.decode_eq_ok_iff.1 hdecoded
                · cases h
            · cases h
        · cases h
  · obtain ⟨text', keyHash, network, hlength⟩ := a
    rintro ⟨rfl, htext⟩
    have hpayload := length_payload hlength network
    have hdecoded : Base58.decode text' =
        .ok (payload keyHash network ++ Hash.checksum (payload keyHash network)) :=
      Base58.decode_eq_ok_iff.2 htext
    have hversion : Network.ofVersion? network.addressVersion = some network :=
      Network.ofVersion?_eq_some_iff.2 rfl
    have hkeyHash : ((payload keyHash network ++
        Hash.checksum (payload keyHash network)).drop 1).take 20 = keyHash :=
      List.take_left' hlength
    rw [ofString, hdecoded]
    dsimp only
    rw [dif_pos (by simp [hpayload]), List.take_left' hpayload, List.drop_left' hpayload,
      if_pos rfl]
    simp only [hkeyHash]
    simp only [payload, List.cons_append, List.headD_cons, hversion]

/-- An address is read back from its text. -/
theorem ofString_ofKeyHash (keyHash : Bytes) (network : Network) (h : keyHash.length = 20) :
    ofString (ofKeyHash keyHash network h).text = .ok (ofKeyHash keyHash network h) :=
  ofString_eq_ok_iff.2 ⟨rfl, rfl⟩

theorem encode_inj {keyHash keyHash' : Bytes} {network network' : Network}
    (h : keyHash.length = 20) (h' : keyHash'.length = 20) :
    encode keyHash network = encode keyHash' network' ↔
      keyHash = keyHash' ∧ network = network' := by
  constructor
  · intro htext
    have hbytes := Base58.encode_inj.1 htext
    have hlength := (length_payload h network).trans (length_payload h' network').symm
    obtain ⟨hversion, hkeyHash⟩ := List.cons.inj (List.append_inj_left hbytes hlength)
    refine ⟨hkeyHash, ?_⟩
    have hread := Network.ofVersion?_eq_some_iff.2 hversion
    rw [Network.ofVersion?_eq_some_iff.2 rfl] at hread
    exact Option.some_inj.1 hread
  · rintro ⟨rfl, rfl⟩
    rfl

/-- Key hashes with networks and accepted texts correspond to each other: the text of an address is
read back as the address, a text that is accepted is the one that its key hash and its network are
written in, and addresses that were read are equal exactly if both of these are. -/
theorem text_bijective :
    (∀ (keyHash : Bytes) (network : Network) (h : keyHash.length = 20),
      ofString (ofKeyHash keyHash network h).text = .ok (ofKeyHash keyHash network h)) ∧
    (∀ (text : String) (a : Address), ofString text = .ok a →
      a.text = text ∧ (ofKeyHash a.keyHash a.network a.length_keyHash).text = text) ∧
    ∀ (text text' : String) (a a' : Address), ofString text = .ok a → ofString text' = .ok a' →
      ((a == a') = true ↔ a.keyHash = a'.keyHash ∧ a.network = a'.network) := by
  refine ⟨ofString_ofKeyHash, ?_, ?_⟩
  · intro text a h
    obtain ⟨hkept, htext⟩ := ofString_eq_ok_iff.1 h
    exact ⟨hkept, htext.symm⟩
  · intro text text' a a' h h'
    obtain ⟨hkept, htext⟩ := ofString_eq_ok_iff.1 h
    obtain ⟨hkept', htext'⟩ := ofString_eq_ok_iff.1 h'
    calc (a == a') = true ↔ a.text = a'.text := beq_iff_eq (α := String)
      _ ↔ encode a.keyHash a.network = encode a'.keyHash a'.network := by
          rw [hkept, hkept', htext, htext']
      _ ↔ a.keyHash = a'.keyHash ∧ a.network = a'.network :=
          encode_inj a.length_keyHash a'.length_keyHash

/-- Twenty zeros and the zero of the main network are twenty-one leading zeros. -/
theorem text_bijective_zeros : ∃ a a' : Address,
    ofString "1111111111111111111114oLvT2" = .ok a ∧
    ofString "mfWxJ45yp2SFn7UciZyNpvDKrzbhyfKrY8" = .ok a' ∧
    (ofKeyHash a.keyHash a.network a.length_keyHash).text = "1111111111111111111114oLvT2" ∧
    a.keyHash = a'.keyHash ∧ a.network ≠ a'.network ∧ (a == a') = false := by
  obtain ⟨hread, hwrite, hequal⟩ := text_bijective
  have hmain := hread (List.replicate 20 0) .mainnet List.length_replicate
  have htest := hread (List.replicate 20 0) .testnet List.length_replicate
  have hmainText : (ofKeyHash (List.replicate 20 0) .mainnet List.length_replicate).text =
      "1111111111111111111114oLvT2" := by decide +kernel
  have htestText : (ofKeyHash (List.replicate 20 0) .testnet List.length_replicate).text =
      "mfWxJ45yp2SFn7UciZyNpvDKrzbhyfKrY8" := by decide +kernel
  rw [hmainText] at hmain
  rw [htestText] at htest
  have hnetworks : Network.mainnet ≠ .testnet := by decide
  refine ⟨_, _, hmain, htest, (hwrite _ _ hmain).2, rfl, hnetworks, ?_⟩
  rw [Bool.eq_false_iff, Ne, hequal _ _ _ _ hmain htest]
  rintro ⟨-, hnetwork⟩
  exact hnetworks hnetwork

end Address

end CashWallet
