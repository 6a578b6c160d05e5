import CashWallet.Proofs.Ledger.Canonical
import CashWallet.Proofs.Ledger.Unspents
import CashWallet.Proofs.Transaction.WireForm

/-!
# The forms of a transaction id

Digits display an id exactly if there are 64 of them. The display form is the reverse of the bytes
on the wire; JSON has the display form, and a backend may show either order. An outpoint that is
read from a display form keeps its id in all of these.
-/

namespace CashWallet

namespace Hex

theorem toList_encode_cons (b : UInt8) (bs : Bytes) :
    (encode (b :: bs)).toList =
      Char.ofNat (digit (b >>> 4)).toNat :: Char.ofNat (digit (b &&& 15)).toNat ::
        (encode bs).toList := by
  rw [encode, encode, String.toList_ofList, String.toList_ofList, encodeBytes_cons]
  rfl

/-- A digit in either case stands for half of a byte. -/
theorem exists_half {c : Char} (h : c ∈ digits) :
    ∃ v : UInt8, v < 16 ∧ c.toLower = Char.ofNat (digit v).toNat := by
  have hall : ∀ c ∈ digits, ∃ n < 16, c.toLower = Char.ofNat (digit (UInt8.ofNat n)).toNat :=
    List.forall_iff_forall_mem.1 (by decide +kernel)
  obtain ⟨n, hn, hdigit⟩ := hall c h
  refine ⟨UInt8.ofNat n, ?_, hdigit⟩
  rw [UInt8.lt_iff_toNat_lt, UInt8.toNat_ofNat_of_lt' (Nat.lt_trans hn (by decide))]
  exact hn

/-- Two digits for each byte spell some bytes. -/
theorem exists_spells {cs : List Char} {n : Nat} (hlength : cs.length = 2 * n)
    (hdigits : ∀ c ∈ cs, c ∈ digits) : ∃ bs, bs.length = n ∧ Spells bs cs := by
  induction n generalizing cs with
  | zero =>
      cases List.length_eq_zero_iff.1 hlength
      exact ⟨[], rfl, rfl⟩
  | succ n ih =>
      obtain ⟨hi, cs, rfl⟩ := List.exists_cons_of_length_eq_add_one hlength
      obtain ⟨lo, cs, rfl⟩ := List.exists_cons_of_length_eq_add_one (Nat.succ.inj hlength)
      rw [List.forall_mem_cons, List.forall_mem_cons] at hdigits
      obtain ⟨hhi, hlo, hdigits⟩ := hdigits
      obtain ⟨high, hhigh, hhi⟩ := exists_half hhi
      obtain ⟨low, hlow, hlo⟩ := exists_half hlo
      obtain ⟨bs, hbs, hspells⟩ := ih (Nat.succ.inj (Nat.succ.inj hlength)) hdigits
      refine ⟨(high <<< 4 ||| low) :: bs, congrArg Nat.succ hbs, ?_⟩
      obtain ⟨hfirst, hsecond⟩ := (eq_pair_iff hhigh hlow).1 rfl
      rw [Spells, toList_encode_cons, ← hfirst, ← hsecond, ← hhi, ← hlo, ← hspells]
      rfl

end Hex

namespace TxId

theorem exists_displays_iff {cs : List Char} :
    (∃ id : TxId, id.Displays cs) ↔ cs.length = 64 ∧ ∀ c ∈ cs, c ∈ Hex.digits := by
  constructor
  · rintro ⟨id, h⟩
    exact ⟨h.length, h.digits⟩
  · rintro ⟨hlength, hdigits⟩
    obtain ⟨bs, hbs, hspells⟩ := Hex.exists_spells (n := 32) hlength hdigits
    refine ⟨⟨bs.reverse, by rw [List.length_reverse, hbs]⟩, ?_⟩
    rw [Displays, toHex, List.reverse_reverse]
    exact hspells

/-- The digits of an id are read as its bytes in the order that is shown. -/
theorem Displays.decode {id : TxId} {text : String} (h : id.Displays text.toList) :
    Hex.decode text = .ok id.bytes.reverse :=
  Hex.decode_eq_ok_iff.2 h

end TxId

namespace Ledger

/-- The orders of a backend tell the same texts, and the ids are the reverse of each other. -/
theorem decodeTxId_internal_iff {text : String} {id : TxId} :
    decodeTxId text .internal = .ok id ↔ decodeTxId text .display = .ok id.reversed := by
  rw [decodeTxId_eq_ok_iff, decodeTxId_eq_ok_iff, HashOrder.shown, HashOrder.shown, TxId.reversed,
    List.reverse_reverse]

theorem decodeTxId_display_iff {text : String} {id : TxId} :
    decodeTxId text .display = .ok id ↔ id.Displays (Text.trim text).toList := by
  rw [Text.toList_trim]
  exact decodeTxId_eq_ok_iff

end Ledger

namespace Outpoint

open Ledger

theorem ofTxIdHex_eq_ok_iff {text : String} {index : UInt32} {o : Outpoint} :
    ofTxIdHex text index = .ok o ↔ o.txid.Displays (Text.trim text).toList ∧ o.index = index := by
  obtain ⟨txid, index'⟩ := o
  rw [Text.toList_trim, ← TxId.ofHex_eq_ok_iff, ofTxIdHex]
  cases TxId.ofHex text with
  | error e => simp
  | ok txid' => simp [eq_comm]

/-- An outpoint is made of a text exactly if 64 digits are left of it without the blank space. It
has the id that these digits display, in the order of the wire, and is the same outpoint again read
from the wire and from JSON. The two orders of a backend tell the same texts, and ids that are the
reverse of each other. -/
theorem txid_kept (text : String) :
    (∀ index, (∃ o, ofTxIdHex text index = .ok o) ↔
        (Text.trim text).toList.length = 64 ∧ ∀ c ∈ (Text.trim text).toList, c ∈ Hex.digits) ∧
      (∀ index o, ofTxIdHex text index = .ok o →
        o.txid.toHex.toList = (Text.trim text).toList.map Char.toLower ∧
          (∃ shown, Hex.decode (Text.trim text) = .ok shown ∧ o.txid.bytes = shown.reverse) ∧
          o.index = index ∧ (∀ rest, Outpoint.read (o.encode ++ rest) = (.ok o, rest)) ∧
          (Json.parse? o.toJson.print).bind ofJson? = some o) ∧
      ((∃ id, decodeTxId text .display = .ok id) ↔ ∃ id, decodeTxId text .internal = .ok id) ∧
      ∀ id id', decodeTxId text .display = .ok id → decodeTxId text .internal = .ok id' →
        id' = id.reversed ∧ id = id'.reversed := by
  refine ⟨?_, ?_, ?_, ?_⟩
  · intro index
    rw [← TxId.exists_displays_iff]
    constructor
    · rintro ⟨o, h⟩
      exact ⟨o.txid, (ofTxIdHex_eq_ok_iff.1 h).1⟩
    · rintro ⟨txid, h⟩
      exact ⟨⟨txid, index⟩, ofTxIdHex_eq_ok_iff.2 ⟨h, rfl⟩⟩
  · intro index o h
    obtain ⟨hdisplays, hindex⟩ := ofTxIdHex_eq_ok_iff.1 h
    refine ⟨hdisplays.symm, ⟨_, hdisplays.decode, List.reverse_reverse _ |>.symm⟩, hindex,
      o.takes_encode, ?_⟩
    have hintegral : o.toJson.isIntegral = true := rfl
    rw [Json.parse?_print hintegral, Option.bind_some, ofJson?_toJson]
  · constructor
    · rintro ⟨id, h⟩
      refine ⟨id.reversed, decodeTxId_internal_iff.2 ?_⟩
      rwa [TxId.reversed_reversed]
    · rintro ⟨id, h⟩
      exact ⟨id.reversed, decodeTxId_internal_iff.1 h⟩
  · intro id id' h h'
    have hsame := h.symm.trans (decodeTxId_internal_iff.1 h')
    rw [Except.ok.injEq] at hsame
    rw [hsame, TxId.reversed_reversed]
    exact ⟨rfl, rfl⟩

/-- Digits in both cases with blank space around them, which spell one id in the order of the wire
and display its reverse. -/
theorem txid_kept_mixed :
    let o : Outpoint := ⟨wireId.reversed, 7⟩
    ofTxIdHex wireText 7 = .ok o ∧
      o.txid.toHex.toList = (Text.trim wireText).toList.map Char.toLower ∧
      (∃ shown, Hex.decode (Text.trim wireText) = .ok shown ∧ o.txid.bytes = shown.reverse) ∧
      Outpoint.read (o.encode ++ [9]) = (.ok o, [9]) ∧
      (Json.parse? o.toJson.print).bind ofJson? = some o ∧
      decodeTxId wireText .internal = .ok wireId ∧
      decodeTxId wireText .display = .ok wireId.reversed ∧ wireId ≠ wireId.reversed := by
  have hinternal : decodeTxId wireText .internal = .ok wireId :=
    decodeTxId_eq_ok_iff.2 wireText_spells
  have hdisplay := decodeTxId_internal_iff.1 hinternal
  have h : ofTxIdHex wireText 7 = .ok ⟨wireId.reversed, 7⟩ :=
    ofTxIdHex_eq_ok_iff.2 ⟨decodeTxId_display_iff.1 hdisplay, rfl⟩
  obtain ⟨-, hkept, -, -⟩ := txid_kept wireText
  obtain ⟨hhex, hdecode, -, hwire, hjson⟩ := hkept 7 _ h
  exact ⟨h, hhex, hdecode, hwire [9], hjson, hinternal, hdisplay, by decide +kernel⟩

end Outpoint

end CashWallet
