import CashWallet.Ledger.Documents
import CashWallet.Proofs.Bytes.HexText
import CashWallet.Proofs.Ledger.Amounts
import CashWallet.Proofs.Results

/-!
# Fields are read as they are told

A pointer with one name leads to the member with that name, and a pointer with two names to the
member of that member. What stands there is read as the data that it tells: an id, an amount in
either unit, a text, addresses, and lists of such items.
-/

namespace CashWallet

namespace Json

variable {P : Json → Prop} {j : Json} {key inner pointer : String}

theorem step?_eq_field? (h : j.isObject) : step? key j = j.field? key := by
  cases j with
  | object members => rfl
  | _ => cases h

theorem HasMember.isObject (h : j.HasMember key P) : j.isObject := by
  obtain ⟨found, hfound, -⟩ := h
  cases j with
  | object members => rfl
  | _ => cases hfound

theorem HasMember.step? (h : j.HasMember key P) : ∃ found, step? key j = some found ∧ P found := by
  rw [step?_eq_field? h.isObject]
  exact h

theorem filter_not_null {found : Json} (hP : P found) (hnull : ¬ P .null) :
    (some found).filter (fun j => !j.isNull) = some found := by
  cases found with
  | null => exact absurd hP hnull
  | _ => rfl

/-- A pointer with one name leads to the member with that name. -/
theorem pointer?_token (hpointer : pointerTokens? pointer = some [key]) (h : j.isObject) :
    j.pointer? pointer = j.field? key := by
  rw [pointer?, hpointer, Option.bind_some, List.foldlM_cons, step?_eq_field? h]
  cases j.field? key <;> rfl

theorem HasMember.found (h : j.HasMember key P) (pointer : String)
    (hpointer : pointerTokens? pointer = some [key]) (hnull : ¬ P .null) :
    ∃ found, j.present? pointer = some found ∧ P found := by
  obtain ⟨found, hfound, hP⟩ := id h
  refine ⟨found, ?_, hP⟩
  rw [present?, pointer?_token hpointer h.isObject, hfound, filter_not_null hP hnull]

/-- A pointer with two names leads to the member of a member. -/
theorem HasMember.found_inner (h : j.HasMember key (HasMember inner P)) (pointer : String)
    (hpointer : pointerTokens? pointer = some [key, inner]) (hnull : ¬ P .null) :
    ∃ found, j.present? pointer = some found ∧ P found := by
  obtain ⟨middle, hmiddle, hinner⟩ := h.step?
  obtain ⟨found, hfound, hP⟩ := hinner.step?
  refine ⟨found, ?_, hP⟩
  have hled : j.pointer? pointer = some found := by
    simp [pointer?, hpointer, hmiddle, hfound]
  rw [present?, hled, filter_not_null hP hnull]

end Json

/-! ## Hexadecimal texts -/

theorem Text.trim_hex (bs : Bytes) : Text.trim (Hex.encode bs) = Hex.encode bs := by
  apply Text.trim_ofList
  intro c hc
  obtain ⟨d, hd, rfl⟩ := List.mem_map.1 hc
  obtain ⟨hlow, hhigh⟩ := Hex.encodeBytes_visible bs d hd
  apply Text.isBlank_of_visible
  · rwa [toNat_ofNat_byte]
  · rwa [toNat_ofNat_byte]

/-- The id is the reverse of what is displayed. -/
theorem TxId.ofHex_encode {shown : Bytes} (h : shown.length = 32) :
    TxId.ofHex (Hex.encode shown) = .ok ⟨shown.reverse, by rw [List.length_reverse, h]⟩ := by
  rw [TxId.ofHex, Text.trim_hex, Hex.decode_encode]
  exact dif_pos h

theorem Script.ofHex_eq_ok_iff {text : String} {script : Script} :
    Script.ofHex text = .ok script ↔ Hex.Spells script.bytes text.toList := by
  rw [← Hex.decode_eq_ok_iff, Script.ofHex]
  cases Hex.decode text with
  | error fault => simp
  | ok bs =>
      obtain ⟨bytes⟩ := script
      simp

theorem Script.ofHex_toHex (script : Script) : Script.ofHex script.toHex = .ok script := by
  rw [Script.ofHex, Script.toHex, Hex.decode_encode]

namespace Ledger

open Json

/-! ## Amounts -/

theorem trim_coinText (value : UInt64) : Text.trim (coinText value) = coinText value := by
  apply Text.trim_ofList
  intro c hc
  rcases List.mem_append.1 hc with hc | hc
  · exact Text.isBlank_of_isDigit (Decimal.isDigit_toDigits _ c hc)
  rcases List.mem_cons.1 hc with rfl | hc
  · rfl
  · exact Text.isBlank_of_isDigit (Decimal.isDigit_padded _ 8 c hc)

/-- Every amount is read back from its text in coins. -/
theorem coinsToSatoshis_coinText (value : UInt64) :
    coinsToSatoshis (coinText value) = .ok value := by
  have hunit : Nat.pow 10 8 = 100000000 := by decide
  have hparse := Decimal.parse_toDigits value.toNat (by decide : 0 < 8) (by decide)
  rw [hunit, ← coinText, ← trim_coinText] at hparse
  exact decimalToSatoshis_of_scale_eq hparse

/-! ## Texts, numbers and addresses -/

theorem integer_ofUInt64 (n : UInt64) : integer (some (.ofUInt64 n)) = .ok n := rfl

theorem text_of_tells {shown : String} {found : Json} (h : TellsText shown found) :
    text (some found) = .ok shown := by
  cases h with
  | string => rfl
  | number n reads =>
      rw [text, reads]

theorem addresses_of_tells {shown : List String} {found : Json} (h : TellsAddresses shown found) :
    addresses (some found) = .ok shown := by
  cases h with
  | array =>
      have hfilter : (shown.map Json.string).filter (fun j => !j.isNull) = shown.map .string := by
        rw [List.filter_eq_self]
        intro j hj
        obtain ⟨address, -, rfl⟩ := List.mem_map.1 hj
        rfl
      rw [addresses, hfilter, Results.mapM_eq_ok_iff, List.forall₂_map_left_iff, List.forall₂_same]
      intro address _
      rfl
  | single address filled =>
      rw [addresses, if_neg (by simpa using filled)]

theorem TellsAddresses.not_null {shown : List String} : ¬ TellsAddresses shown .null := by
  intro h
  cases h

/-! ## Lists -/

variable {α : Type} {R : α → Json → Prop} {entries : List α} {payload : Json}
  {key : String}

theorem items_of_tells (h : payload.HasMember key (Tells R entries)) (pointer : String)
    (hpointer : pointerTokens? pointer = some [key]) :
    ∃ items, payload.present? pointer = some (.array items) ∧ List.Forall₂ R entries items := by
  have hnull : ¬ Tells R entries .null := by
    rintro ⟨items, h, -⟩
    cases h
  obtain ⟨found, hfound, items, rfl, hitems⟩ := h.found pointer hpointer hnull
  exact ⟨items, hfound, hitems⟩

theorem list_of_tells (h : payload.HasMember key (Tells R entries)) (pointer : String)
    (hpointer : pointerTokens? pointer = some [key]) :
    ∃ items, list payload pointer = .ok items ∧ List.Forall₂ R entries items := by
  obtain ⟨items, hfound, hitems⟩ := items_of_tells h pointer hpointer
  exact ⟨items, by rw [list, hfound], hitems⟩

theorem optionalList_of_tells (h : payload.HasMember key (Tells R entries)) (pointer : String)
    (hpointer : pointerTokens? pointer = some [key]) :
    ∃ items, optionalList payload pointer = .ok items ∧ List.Forall₂ R entries items := by
  obtain ⟨items, hfound, hitems⟩ := items_of_tells h pointer hpointer
  exact ⟨items, by rw [optionalList, hfound], hitems⟩

end Ledger

end CashWallet
