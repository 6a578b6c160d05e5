import CashWallet.Proofs.Ledger.Fields
import CashWallet.Proofs.Number.Integer
import CashWallet.Proofs.TxId

/-!
# Unspent outputs are read as they are listed

A field of an item is read from whatever its pointer leads to. Nothing and null tell the default of
the field; anything else tells one value or none. An item tells an unspent output if each field
tells the part of it, and a reply is decoded into the outputs that the items of its list tell, one
for each item and in their order. One item that tells none fails the reply.
-/

namespace CashWallet

open Results

namespace Ledger

open Json

variable {α : Type}

/-! ## Fields -/

/-- A field tells some data; one that is absent or null tells the default. -/
def FieldTells (default : α) (R : α → Json → Prop) (a : α) : Option Json → Prop
  | none => a = default
  | some .null => a = default
  | some found => R a found

/-- A natural number of 64 bits, or a text of one with blank space around it. -/
inductive TellsInteger (n : UInt64) : Json → Prop
  | number : TellsInteger n (.ofUInt64 n)
  | string (text : String) (writes : Integer.Writes n.toNat (Text.trimChars text.toList)) :
      TellsInteger n (.string text)

/-- A value in some unit tells the satoshis that it is converted into. -/
def TellsAmount (unit : AmountUnit) (sats : UInt64) (found : Json) : Prop :=
  amount unit (some found) = .ok sats

/-- Hexadecimal digits tell the script that they spell, and an empty text tells the fallback. -/
def TellsLock (fallback script : Script) (hex : String) : Prop :=
  if hex = "" then script = fallback else Hex.Spells script.bytes hex.toList

/-- A reader of fields takes each for what it tells. -/
structure Reads (read : Option Json → Except Mismatch α) (default : α) (R : α → Json → Prop) :
    Prop where
  absent : read none = .ok default
  told : ∀ a found, found ≠ .null → (read (some found) = .ok a ↔ R a found)

theorem Reads.eq_ok_iff {read : Option Json → Except Mismatch α} {default : α}
    {R : α → Json → Prop} (h : Reads read default R) (j : Json) (pointer : String) (a : α) :
    read (j.present? pointer) = .ok a ↔ FieldTells default R a (j.pointer? pointer) := by
  have hdefault : read none = .ok a ↔ a = default := by
    rw [h.absent, ok_eq_ok_iff]
  rw [present?]
  cases j.pointer? pointer with
  | none => exact hdefault
  | some found =>
      cases found with
      | null => exact hdefault
      | _ =>
          apply h.told a
          intro hnull
          cases hnull

theorem integer_reads : Reads integer 0 TellsInteger where
  absent := rfl
  told n found hfound := by
    constructor
    · intro h
      cases found with
      | null => contradiction
      | number shown =>
          cases shown with
          | natural m =>
              cases h
              exact .number
          | _ => cases h
      | string text =>
          rw [integer] at h
          split at h
          · next hread =>
              cases h
              rw [Integer.u64?_eq_some_iff, Text.toList_trim] at hread
              exact .string text hread
          · cases h
      | _ => cases h
    · intro h
      cases h with
      | number => rfl
      | string text writes =>
          have hread : Integer.u64? (Text.trim text) = some n := by
            rwa [Integer.u64?_eq_some_iff, Text.toList_trim]
          rw [integer, hread]

theorem amount_reads (unit : AmountUnit) : Reads (amount unit) 0 (TellsAmount unit) where
  absent := rfl
  told _ _ _ := Iff.rfl

theorem text_reads : Reads text "" TellsText where
  absent := rfl
  told shown found hfound := by
    constructor
    · intro h
      cases found with
      | null => contradiction
      | number n =>
          cases h
          exact .number n rfl
      | string text =>
          cases h
          exact .string
      | _ => cases h
    · exact text_of_tells

end Ledger

/-! ## Items -/

/-- The bytes of an id in the order of a backend. -/
def HashOrder.shown : HashOrder → TxId → Bytes
  | display, id => id.bytes.reverse
  | internal, id => id.bytes

namespace UnspentMapping

/-- An item tells an unspent output of an address. -/
structure Tells (m : UnspentMapping) (address : Address) (u : Unspent) (item : Json) : Prop where
  object : item.isObject
  txid : ∃ text, item.pointer? m.txid = some (.string text) ∧
    Hex.Spells (m.hashOrder.shown u.outpoint.txid) (Text.trimChars text.toList)
  index : Ledger.FieldTells 0 Ledger.TellsInteger u.outpoint.index.toUInt64
    (item.pointer? m.index)
  value : Ledger.FieldTells 0 (Ledger.TellsAmount m.unit) u.output.value (item.pointer? m.value)
  script : ∃ hex, Ledger.FieldTells "" Json.TellsText hex (m.script.bind item.pointer?) ∧
    Ledger.TellsLock address.lock u.output.script hex

/-- The items that a reply lists. The list may be missing if it is optional. -/
inductive Lists (m : UnspentMapping) (payload : Json) : List Json → Prop
  | array (items : List Json) (found : payload.pointer? m.list = some (.array items)) :
      Lists m payload items
  | absent (optional : m.listOptional = true) (missing : payload.pointer? m.list = none) :
      Lists m payload []
  | null (optional : m.listOptional = true) (found : payload.pointer? m.list = some .null) :
      Lists m payload []

end UnspentMapping

namespace Ledger

open Json

variable {m : UnspentMapping} {address : Address} {payload item : Json} {items : List Json}
  {u : Unspent} {us : List Unspent}

theorem decodeTxId_eq_ok_iff {text : String} {order : HashOrder} {id : TxId} :
    decodeTxId text order = .ok id ↔
      Hex.Spells (order.shown id) (Text.trimChars text.toList) := by
  cases order with
  | display => exact mapError_eq_ok_iff.trans TxId.ofHex_eq_ok_iff
  | internal => exact mapError_eq_ok_iff.trans TxId.ofInternalHex_eq_ok_iff

theorem scriptOf_eq_ok_iff {pointer : Option String} {fallback script : Script} :
    scriptOf item pointer fallback = .ok script ↔
      ∃ hex, FieldTells "" TellsText hex (pointer.bind item.pointer?) ∧
        TellsLock fallback script hex := by
  have hscript (hex : String) : (if hex.isEmpty then pure fallback
      else (Script.ofHex hex).mapError Mismatch.script) = .ok script ↔
        TellsLock fallback script hex := by
    rw [TellsLock]
    by_cases hempty : hex = ""
    · rw [if_pos hempty, if_pos (String.isEmpty_iff.2 hempty)]
      exact ok_eq_ok_iff
    · rw [if_neg hempty, if_neg (mt String.isEmpty_iff.1 hempty), mapError_eq_ok_iff,
        Script.ofHex_eq_ok_iff]
  unfold scriptOf
  cases pointer with
  | none =>
      simp only [bind_eq_ok_iff, hscript, ok_eq_ok_iff]
      rfl
  | some pointer =>
      simp only [bind_eq_ok_iff, hscript, text_reads.eq_ok_iff, Option.bind_some]

/-- An unspent output is read field by field. -/
theorem decodeUnspent_eq_ok_iff {fallback : Script} : decodeUnspent m fallback item = .ok u ↔
    item.isObject ∧
      (∃ text, (item.present? m.txid).bind string? = some text ∧
        decodeTxId text m.hashOrder = .ok u.outpoint.txid) ∧
      integer (item.present? m.index) = .ok u.outpoint.index.toUInt64 ∧
      amount m.unit (item.present? m.value) = .ok u.output.value ∧
      scriptOf item m.script fallback = .ok u.output.script := by
  constructor
  · intro h
    unfold decodeUnspent at h
    cases hobject : item.isObject with
    | false =>
        rw [hobject] at h
        cases h
    | true =>
        cases htext : (item.present? m.txid).bind string? with
        | none =>
            rw [hobject, htext] at h
            cases h
        | some text =>
            simp only [hobject, htext, Bool.not_true, Bool.false_eq_true, if_false] at h
            obtain ⟨txid, htxid, h⟩ := bind_eq_ok_iff.1 h
            obtain ⟨index, hindex, h⟩ := bind_eq_ok_iff.1 h
            split at h
            · cases h
            · next hrange =>
                obtain ⟨value, hvalue, h⟩ := bind_eq_ok_iff.1 h
                obtain ⟨script, hscript, h⟩ := bind_eq_ok_iff.1 h
                cases h
                have hsame : index.toUInt32.toUInt64 = index := by
                  rw [← UInt64.toNat_inj, UInt32.toNat_toUInt64, UInt64.toNat_toUInt32,
                    Nat.mod_eq_of_lt (Nat.not_le.1 hrange)]
                exact ⟨rfl, ⟨text, rfl, htxid⟩, by rw [hindex, hsame], hvalue, hscript⟩
  · rintro ⟨hobject, ⟨text, htext, htxid⟩, hindex, hvalue, hscript⟩
    have hrange : ¬ UInt32.size ≤ u.outpoint.index.toUInt64.toNat := by
      rw [UInt32.toNat_toUInt64]
      exact Nat.not_le_of_lt u.outpoint.index.toNat_lt
    simp only [decodeUnspent, hobject, htext, htxid, hindex, hvalue, hscript, ok_bind,
      if_neg hrange, UInt32.toUInt32_toUInt64]
    rfl

theorem present?_string_iff {pointer text : String} :
    (item.present? pointer).bind string? = some text ↔
      item.pointer? pointer = some (.string text) := by
  rw [present?]
  constructor
  · intro h
    cases hfound : item.pointer? pointer with
    | none =>
        rw [hfound] at h
        cases h
    | some found =>
        rw [hfound] at h
        cases found with
        | string shown =>
            cases h
            rfl
        | _ => cases h
  · intro h
    rw [h]
    rfl

/-- An item is decoded into the unspent output that it tells, and into no other. -/
theorem decodeUnspent_eq_ok_iff_tells :
    decodeUnspent m address.lock item = .ok u ↔ m.Tells address u item := by
  simp only [decodeUnspent_eq_ok_iff, present?_string_iff, decodeTxId_eq_ok_iff,
    integer_reads.eq_ok_iff, (amount_reads m.unit).eq_ok_iff, scriptOf_eq_ok_iff]
  constructor
  · rintro ⟨hobject, htxid, hindex, hvalue, hscript⟩
    exact ⟨hobject, htxid, hindex, hvalue, hscript⟩
  · rintro ⟨hobject, htxid, hindex, hvalue, hscript⟩
    exact ⟨hobject, htxid, hindex, hvalue, hscript⟩

/-! ## Lists -/

/-- The items that are decoded. -/
def listed (m : UnspentMapping) (payload : Json) : Except Mismatch (List Json) :=
  if m.listOptional then optionalList payload m.list else list payload m.list

theorem listed_eq_ok_iff : listed m payload = .ok items ↔ m.Lists payload items := by
  rw [listed, optionalList, list, present?]
  constructor
  · cases hfound : payload.pointer? m.list with
    | none =>
        intro h
        split at h
        · next optional =>
            cases h
            exact .absent optional hfound
        · cases h
    | some found =>
        intro h
        cases found with
        | null =>
            split at h
            · next optional =>
                cases h
                exact .null optional hfound
            · cases h
        | array found =>
            cases (ite_self _).symm.trans h
            exact .array items hfound
        | _ => cases (ite_self _).symm.trans h
  · intro h
    cases h with
    | array items found =>
        rw [found]
        exact ite_self _
    | absent optional missing =>
        rw [if_pos optional, missing]
        rfl
    | null optional found =>
        rw [if_pos optional, found]
        rfl

theorem decodeUnspents_eq (m : UnspentMapping) (payload : Json) (address : Address) :
    decodeUnspents payload m address =
      listed m payload >>= List.mapM (decodeUnspent m address.lock) := by
  unfold decodeUnspents listed
  split
  · rfl
  · rfl

/-- What is decoded are the items of the list, or nothing where the list may be missing. -/
theorem decodeUnspents_eq_ok_iff : decodeUnspents payload m address = .ok us ↔
    ∃ items, m.Lists payload items ∧ items.mapM (decodeUnspent m address.lock) = .ok us := by
  simp only [decodeUnspents_eq, bind_eq_ok_iff, listed_eq_ok_iff]

theorem decodeUnspents_of_lists (h : m.Lists payload items) (address : Address) :
    decodeUnspents payload m address = items.mapM (decodeUnspent m address.lock) := by
  rw [decodeUnspents_eq, listed_eq_ok_iff.2 h, ok_bind]

/-- Items are decoded into what they tell, one by one. -/
theorem mapM_decodeUnspent_eq_ok_iff : items.mapM (decodeUnspent m address.lock) = .ok us ↔
    List.Forall₂ (m.Tells address) us items := by
  rw [mapM_eq_ok_iff]
  simp only [decodeUnspent_eq_ok_iff_tells]
  exact ⟨List.Forall₂.flip, List.Forall₂.flip⟩

theorem exists_mapM_decodeUnspent_iff :
    (∃ us, items.mapM (decodeUnspent m address.lock) = .ok us) ↔
      ∀ item ∈ items, ∃ u, m.Tells address u item := by
  simp only [exists_mapM_iff, decodeUnspent_eq_ok_iff_tells]

/-- The decoded outputs are those that the items of the list tell. -/
theorem decodeUnspents_faithful (m : UnspentMapping) (payload : Json) (address : Address) :
    ((∃ us, decodeUnspents payload m address = .ok us) ↔
      ∃ items, m.Lists payload items ∧ ∀ item ∈ items, ∃ u, m.Tells address u item) ∧
    (∀ us, decodeUnspents payload m address = .ok us ↔
      ∃ items, m.Lists payload items ∧ List.Forall₂ (m.Tells address) us items) ∧
    (∀ items, m.Lists payload items → (∃ item ∈ items, ∀ u, ¬ m.Tells address u item) →
      ∃ fault, (decodeUnspents payload m address).mapError LedgerError.mismatch = .error fault ∧
        fault.kind = "DecodeMismatch") ∧
    ∀ front back left right, m.Lists payload (front ++ back) →
      m.Lists left front → m.Lists right back →
      decodeUnspents payload m address = do
        let us ← decodeUnspents left m address
        let vs ← decodeUnspents right m address
        return us ++ vs := by
  refine ⟨?_, ?_, ?_, ?_⟩
  · simp only [decodeUnspents_eq_ok_iff]
    rw [exists_comm]
    refine exists_congr fun items => ?_
    rw [exists_and_left, exists_mapM_decodeUnspent_iff]
  · intro us
    simp only [decodeUnspents_eq_ok_iff, mapM_decodeUnspent_eq_ok_iff]
  · rintro items hlists ⟨item, hitem, hnone⟩
    rw [decodeUnspents_of_lists hlists]
    cases hdecoded : items.mapM (decodeUnspent m address.lock) with
    | error cause => exact ⟨_, rfl, rfl⟩
    | ok us =>
        obtain ⟨u, hu⟩ := exists_mapM_decodeUnspent_iff.1 ⟨us, hdecoded⟩ item hitem
        exact absurd hu (hnone u)
  · intro front back left right hlists hleft hright
    rw [decodeUnspents_of_lists hlists, decodeUnspents_of_lists hleft,
      decodeUnspents_of_lists hright, List.mapM_append]

/-- A mapping for ids in the order of the wire. -/
def wireMapping : UnspentMapping where
  path := ""
  list := "/coins"
  listOptional := false
  txid := "/tx"
  index := "/place"
  value := "/worth"
  script := some "/lock"
  unit := .satoshis
  hashOrder := .internal

def wireAddress : Address := ⟨"", List.replicate 20 9, .mainnet, rfl⟩

def wireId : TxId := ⟨((List.range 32).map UInt8.ofNat).reverse, rfl⟩

/-- The digits of the id in either case, with blank space around them. -/
def wireText : String :=
  " 1f1e1d1c1B1A191817161514131211100f0E0D0C0B0A09080706050403020100\n"

theorem wireText_spells : Hex.Spells wireId.bytes (Text.trimChars wireText.toList) := by
  decide +kernel

def wireItem (fields : List (String × Json)) : Json :=
  .object (("tx", .string wireText) :: fields)

def wireReply (items : List Json) : Json :=
  .object [("coins", .array items)]

def bareItem : Json := wireItem []

def filledItem : Json :=
  wireItem [("place", .string " +7"), ("worth", .string "1e3"), ("lock", .ofUInt64 51)]

def beyondItem : Json := wireItem [("place", .ofUInt64 4294967296)]

theorem wireMapping_lists (items : List Json) : wireMapping.Lists (wireReply items) items :=
  .array items rfl

theorem bareItem_tells :
    wireMapping.Tells wireAddress ⟨⟨0, wireAddress.lock⟩, ⟨wireId, 0⟩⟩ bareItem where
  object := rfl
  txid := ⟨wireText, rfl, wireText_spells⟩
  index := rfl
  value := rfl
  script := ⟨"", rfl, rfl⟩

theorem filledItem_tells :
    wireMapping.Tells wireAddress ⟨⟨1000, ⟨[0x51]⟩⟩, ⟨wireId, 7⟩⟩ filledItem where
  object := rfl
  txid := ⟨wireText, rfl, wireText_spells⟩
  index := .string " +7" ⟨['7'], .inr rfl, nofun, List.forall_mem_singleton.2 rfl, rfl⟩
  value := rfl
  script := ⟨"51", .number _ rfl, rfl⟩

theorem beyondItem_tells_none (u : Unspent) : ¬ wireMapping.Tells wireAddress u beyondItem := by
  intro h
  have hindex : TellsInteger u.outpoint.index.toUInt64 (.ofUInt64 4294967296) := h.index
  have hrange := u.outpoint.index.toNat_lt
  rw [← UInt32.toNat_toUInt64] at hrange
  generalize u.outpoint.index.toUInt64 = n at hindex hrange
  cases hindex
  exact absurd hrange (by decide)

/-- Fields that are missing, that are texts and that are numbers. An index beyond 32 bits fails the
item before it as well. -/
theorem decodeUnspents_faithful_mixed :
    decodeUnspents (wireReply [bareItem, filledItem]) wireMapping wireAddress =
        .ok [⟨⟨0, wireAddress.lock⟩, ⟨wireId, 0⟩⟩, ⟨⟨1000, ⟨[0x51]⟩⟩, ⟨wireId, 7⟩⟩] ∧
      (∃ fault, (decodeUnspents (wireReply [bareItem, beyondItem]) wireMapping
        wireAddress).mapError LedgerError.mismatch = .error fault ∧
        fault.kind = "DecodeMismatch") ∧
      decodeUnspents (wireReply [bareItem, beyondItem]) wireMapping wireAddress = do
        let us ← decodeUnspents (wireReply [bareItem]) wireMapping wireAddress
        let vs ← decodeUnspents (wireReply [beyondItem]) wireMapping wireAddress
        return us ++ vs := by
  obtain ⟨-, htold, -, -⟩ :=
    decodeUnspents_faithful wireMapping (wireReply [bareItem, filledItem]) wireAddress
  obtain ⟨-, -, hfailed, hsplit⟩ :=
    decodeUnspents_faithful wireMapping (wireReply [bareItem, beyondItem]) wireAddress
  refine ⟨?_, ?_, ?_⟩
  · exact (htold _).2 ⟨_, wireMapping_lists _, .cons bareItem_tells (.cons filledItem_tells .nil)⟩
  · exact hfailed _ (wireMapping_lists _) ⟨beyondItem, by simp, beyondItem_tells_none⟩
  · exact hsplit [bareItem] [beyondItem] _ _ (wireMapping_lists _) (wireMapping_lists _)
      (wireMapping_lists _)

end Ledger

end CashWallet
