import CashWallet.Key.Private
import CashWallet.Proofs.Results
import CashWallet.Proofs.Text.Base58
import CashWallet.Proofs.Text.Whitespace

/-!
# The import format is lossless

The length of a decoded text and its flag byte tell the form of the key, and every other byte of it
is the version, the scalar or the checksum. So a text is read as a key exactly if it is the text of
this key, with nothing but blank space around it.
-/

namespace CashWallet

open Results

namespace PrivateKey

variable {key : PrivateKey} {text : String} {decoded : Bytes}

theorem ext {key key' : PrivateKey} (hscalar : key.scalar = key'.scalar)
    (hcompressed : key.compressed = key'.compressed) (hversion : key.wifPrefix = key'.wifPrefix) :
    key = key' := by
  cases key
  cases key'
  cases hscalar
  cases hcompressed
  cases hversion
  rfl

theorem scalar_lt_width (key : PrivateKey) : key.scalar < Nat.pow 256 32 :=
  Nat.lt_trans key.scalar_lt (by decide)

@[simp] theorem length_toBytes (key : PrivateKey) : key.toBytes.length = 32 :=
  Endian.length_toBig 32 key.scalar

/-- The bytes of a scalar are read as a key in the usual form, and nothing else is. -/
theorem ofBytes_eq_ok_iff {bs : Bytes} : ofBytes bs = .ok key ↔
    bs = key.toBytes ∧ key.compressed = true ∧ key.wifPrefix = mainnetPrefix := by
  constructor
  · intro h
    unfold ofBytes at h
    split at h
    · next hlength =>
        dsimp only at h
        split at h
        · cases h
          exact ⟨(Endian.toBig_ofBig hlength).symm, rfl, rfl⟩
        · cases h
    · cases h
  · rintro ⟨rfl, hcompressed, hversion⟩
    have hscalar : Endian.ofBig key.toBytes = key.scalar := Endian.ofBig_toBig key.scalar_lt_width
    rw [ofBytes, if_pos key.length_toBytes]
    dsimp only
    rw [dif_pos (by rw [hscalar]; exact ⟨key.scalar_pos, key.scalar_lt⟩)]
    exact congrArg Except.ok (ext hscalar hcompressed.symm hversion.symm)

/-- The flag byte behind the scalar of a key that is written compressed. -/
def flag (compressed : Bool) : Bytes :=
  if compressed then [1] else []

theorem payload_eq (key : PrivateKey) :
    key.payload = key.wifPrefix :: (key.toBytes ++ flag key.compressed) := rfl

theorem length_payload (key : PrivateKey) :
    key.payload.length = 33 + (flag key.compressed).length := by
  rw [payload_eq, List.length_cons, List.length_append, length_toBytes]
  omega

theorem hasFlag_eq_ok_iff {compressed : Bool} : hasFlag decoded = .ok compressed ↔
    decoded.length = 37 + (flag compressed).length ∧
      (compressed = true → decoded[33]? = some 1) := by
  unfold hasFlag
  cases compressed with
  | true => split <;> split <;> simp_all [flag]
  | false => split <;> split <;> simp_all [flag]

/-- What stands before the checksum is a version, 32 bytes and the flag byte, if there is one. -/
theorem body_eq {body : Bytes} {compressed : Bool}
    (hlength : body.length = 33 + (flag compressed).length)
    (hflag : compressed = true → body[33]? = some 1) :
    body = body.headD 0 :: ((body.drop 1).take 32 ++ flag compressed) := by
  cases body with
  | nil =>
      rw [List.length_nil] at hlength
      omega
  | cons version rest =>
      have hlength' : rest.length = 32 + (flag compressed).length := by
        rw [List.length_cons] at hlength
        omega
      have hrest : rest.drop 32 = flag compressed := by
        cases compressed with
        | false => exact List.drop_eq_nil_of_le (Nat.le_of_eq hlength')
        | true =>
            obtain ⟨hin, hone⟩ := List.getElem?_eq_some_iff.1 (hflag rfl)
            have hbehind : rest.drop 33 = [] := List.drop_eq_nil_of_le (Nat.le_of_eq hlength')
            rw [List.drop_eq_getElem_cons (Nat.lt_of_succ_lt_succ hin), hbehind]
            exact congrArg (List.cons · []) hone
      rw [List.headD_cons, List.drop_one, List.tail_cons, ← hrest, List.take_append_drop]

/-- A text is read as a key exactly if, without the blank space around it, it is the text of the
key. -/
theorem ofWif_eq_ok_iff : ofWif text = .ok key ↔ Text.trim text = key.toWif := by
  rw [toWif, ← Base58.decode_eq_ok_iff]
  constructor
  · intro h
    unfold ofWif at h
    simp only [bind_eq_ok_iff, mapError_eq_ok_iff] at h
    obtain ⟨decoded, hdecoded, compressed, hcompressed, h⟩ := h
    obtain ⟨hlength, hflag⟩ := hasFlag_eq_ok_iff.1 hcompressed
    split at h
    · cases h
    · next hchecksum =>
        obtain ⟨plain, hplain, hkey⟩ := bind_eq_ok_iff.1 h
        cases hkey
        obtain ⟨hbytes, -⟩ := ofBytes_eq_ok_iff.1 hplain
        have hlengthBody : (decoded.take (decoded.length - 4)).length =
            33 + (flag compressed).length := by
          rw [List.length_take_of_le (Nat.sub_le _ _)]
          omega
        have hflagBody (hc : compressed = true) :
            (decoded.take (decoded.length - 4))[33]? = some 1 := by
          rw [List.getElem?_take_of_lt (by rw [hlength, hc]; decide)]
          exact hflag hc
        have hbody := body_eq hlengthBody hflagBody
        have hpayload : payload ⟨plain.scalar, compressed,
            (decoded.take (decoded.length - 4)).headD 0, plain.scalar_pos, plain.scalar_lt⟩ =
            decoded.take (decoded.length - 4) := by
          conv_rhs => rw [hbody, hbytes]
          rfl
        rw [hpayload, not_ne_iff.1 hchecksum, List.take_append_drop]
        exact hdecoded
  · intro h
    have hlength : (key.payload ++ Hash.checksum key.payload).length - 4 = key.payload.length := by
      rw [List.length_append, Hash.length_checksum, Nat.add_sub_cancel]
    have hflag : hasFlag (key.payload ++ Hash.checksum key.payload) = .ok key.compressed := by
      apply hasFlag_eq_ok_iff.2
      constructor
      · rw [List.length_append, Hash.length_checksum, length_payload]
        omega
      · intro hcompressed
        have hwhole : key.payload ++ Hash.checksum key.payload =
            (key.wifPrefix :: key.toBytes) ++ 1 :: Hash.checksum key.payload := by
          rw [payload_eq, hcompressed]
          simp [flag]
        rw [hwhole, List.getElem?_append_right (by simp)]
        simp
    have hbytes : (key.payload.drop 1).take 32 = key.toBytes := List.take_left' key.length_toBytes
    unfold ofWif
    refine bind_eq_ok_iff.2 ⟨_, mapError_eq_ok_iff.2 h, bind_eq_ok_iff.2 ⟨_, hflag, ?_⟩⟩
    simp only [hlength, List.take_left' rfl, List.drop_left' rfl, hbytes, ne_eq, not_true_eq_false,
      if_false]
    refine bind_eq_ok_iff.2 ⟨{ key with compressed := true, wifPrefix := mainnetPrefix },
      ofBytes_eq_ok_iff.2 ⟨rfl, rfl, rfl⟩, ?_⟩
    exact congrArg Except.ok (ext rfl rfl rfl)

/-! ## Blank space around the text -/

theorem toWif_ne_nil (key : PrivateKey) : key.toWif.toList ≠ [] := by
  intro hempty
  have hwritten : Base58.encode [] = key.toWif := (String.toList_eq_nil_iff.1 hempty).symm
  have hlength := congrArg List.length (Base58.encode_inj.1 hwritten)
  rw [List.length_append, Hash.length_checksum, List.length_nil] at hlength
  omega

theorem toWif_visible (key : PrivateKey) : ∀ c ∈ key.toWif.toList, Text.isBlank c = false := by
  intro c hc
  rw [toWif, Base58.encode, String.toList_ofList] at hc
  obtain ⟨d, hd, rfl⟩ := List.mem_map.1 hc
  obtain ⟨hlow, hhigh⟩ := Base58.encodeBytes_visible _ d hd
  apply Text.isBlank_of_visible
  · rwa [toNat_ofNat_byte]
  · rwa [toNat_ofNat_byte]

theorem trim_toWif (key : PrivateKey) {before after : String}
    (hbefore : ∀ c ∈ before.toList, Text.isBlank c = true)
    (hafter : ∀ c ∈ after.toList, Text.isBlank c = true) :
    Text.trim (before ++ key.toWif ++ after) = key.toWif := by
  rw [Text.trim, String.toList_append, String.toList_append, Text.trimChars,
    Text.stripChars_padded hbefore hafter key.toWif_visible key.toWif_ne_nil, String.ofList_toList]

/-- Keys and their texts correspond to each other: a key is read back from its text, whatever blank
space is around it, with the same scalar, form and version byte. A text that is read as a key is,
without the blank space around it, the text of this key. So different texts, apart from the blank
space around them, are never read as keys that agree in all three. -/
theorem importText_bijective :
    (∀ (key : PrivateKey) (before after : String),
      (∀ c ∈ before.toList, Text.isBlank c = true) →
      (∀ c ∈ after.toList, Text.isBlank c = true) →
      ofWif (before ++ key.toWif ++ after) = .ok key) ∧
    (∀ (text : String) (key : PrivateKey), ofWif text = .ok key → key.toWif = Text.trim text) ∧
    ∀ (text text' : String) (key key' : PrivateKey), ofWif text = .ok key →
      ofWif text' = .ok key' → Text.trim text ≠ Text.trim text' →
      ¬ (key.scalar = key'.scalar ∧ key.compressed = key'.compressed ∧
        key.wifPrefix = key'.wifPrefix) := by
  refine ⟨?_, ?_, ?_⟩
  · intro key before after hbefore hafter
    exact ofWif_eq_ok_iff.2 (key.trim_toWif hbefore hafter)
  · intro text key h
    exact (ofWif_eq_ok_iff.1 h).symm
  · rintro text text' key key' h h' hne ⟨hscalar, hcompressed, hversion⟩
    apply hne
    calc Text.trim text = key.toWif := ofWif_eq_ok_iff.1 h
      _ = key'.toWif := by rw [ext hscalar hcompressed hversion]
      _ = Text.trim text' := (ofWif_eq_ok_iff.1 h').symm

/-- A scalar with both forms of its text. -/
def twoForms (compressed : Bool) : PrivateKey where
  scalar := 0x0c28fca386c7a227600b2fe50b7cae11ec86d3bf1fbe471be89827e19d72aa1d
  compressed
  scalar_pos := by decide
  scalar_lt := by decide

theorem importText_bijective_padded : ∃ key key' : PrivateKey,
    ofWif ("\u3000 " ++ "5HueCGU8rMjxEXxiPuD5BDku4MkFqeZyd4dZ1jvhTVqvbTLvyTJ" ++ "\n") = .ok key ∧
    ofWif ("" ++ "KwdMAjGmerYanjeui5SHS7JkmpZvVipYvB2LJGU1ZxJwYvP98617" ++ "") = .ok key' ∧
    key.scalar = key'.scalar ∧ key.wifPrefix = key'.wifPrefix ∧ key.compressed ≠ key'.compressed ∧
    key.toWif = "5HueCGU8rMjxEXxiPuD5BDku4MkFqeZyd4dZ1jvhTVqvbTLvyTJ" := by
  obtain ⟨hread, hwrite, hdistinct⟩ := importText_bijective
  have hplain : (twoForms false).toWif = "5HueCGU8rMjxEXxiPuD5BDku4MkFqeZyd4dZ1jvhTVqvbTLvyTJ" := by
    decide +kernel
  have hflagged : (twoForms true).toWif =
      "KwdMAjGmerYanjeui5SHS7JkmpZvVipYvB2LJGU1ZxJwYvP98617" := by
    decide +kernel
  have h := hread (twoForms false) "\u3000 " "\n" (List.all_eq_true.1 (by decide))
    (List.all_eq_true.1 (by decide))
  have h' := hread (twoForms true) "" "" (by simp) (by simp)
  have hdiffer := hdistinct _ _ _ _ h h'
  have htrimmed : Text.trim ("\u3000 " ++ (twoForms false).toWif ++ "\n") ≠
      Text.trim ("" ++ (twoForms true).toWif ++ "") := by
    rw [← hwrite _ _ h, ← hwrite _ _ h', hplain, hflagged]
    decide
  rw [hplain] at h
  rw [hflagged] at h'
  refine ⟨_, _, h, h', rfl, rfl, ?_, hplain⟩
  intro hsame
  exact hdiffer htrimmed ⟨rfl, hsame, rfl⟩

end PrivateKey

end CashWallet
