import CashWallet.Cache.Ledger
import CashWallet.Proofs.Json.Document
import CashWallet.Proofs.Ledger.Canonical
import CashWallet.Proofs.Number.Integer

/-!
# What is put into the cache is read back

An entry is read back as the value that it was written with, and an entry whose header cannot be
read or has another version reads as nothing. Neither depends on what is written or erased under
other keys: the names of the keys are distinct, and so are the paths of their files.
-/

namespace CashWallet

theorem CacheKey.name_inj {key other : CacheKey} : key.name = other.name ↔ key = other := by
  cases key <;> cases other <;> decide

namespace CacheEntry

variable {α : Type} {value : Json} {decode : Json → Option α} {entry : Bytes}

theorem document?_encode (backend : String) (h : value.isIntegral = true) :
    document? (encode backend value) =
      some (.object [("version", .ofUInt32 version), ("backend", .string backend),
        ("value", value)]) := by
  rw [document?, encode, Json.parseBytes?_utf8Bytes]
  apply Json.parse?_print
  change (true && (true && (value.isIntegral && true))) = true
  rw [h]
  rfl

/-- The header is read whatever the value is. -/
theorem header?_encode (backend : String) (h : value.isIntegral = true) :
    header? (encode backend value) = some ⟨version, backend⟩ := by
  have hrecord : (Json.object [("version", .ofUInt32 version), ("backend", .string backend),
      ("value", value)]).record? ["version", "backend"] =
      some ⟨false, [some (.ofUInt32 version), some (.string backend)]⟩ :=
    Record.ofMembers?_zip [_, _] [("value", value)] (by simp) rfl
  simp [header?, document?_encode backend h, hrecord, Record.required, Record.slot,
    Json.uint32?_ofUInt32, Json.string?]

theorem value?_encode (backend : String) (h : value.isIntegral = true) :
    value? decode (encode backend value) = decode value := by
  have hrecord : (Json.object [("version", .ofUInt32 version), ("backend", .string backend),
      ("value", value)]).record? ["version", "backend", "value"] =
      some ⟨false, [some (.ofUInt32 version), some (.string backend), some value]⟩ :=
    Record.ofMembers?_zip [_, _, _] [] (by decide) rfl
  simp [value?, document?_encode backend h, hrecord, Record.required, Record.slot,
    Json.uint32?_ofUInt32, Json.string?]

theorem decode?_encode (backend : String) (h : value.isIntegral = true) :
    decode? decode (encode backend value) = decode value := by
  rw [decode?, header?_encode backend h, Option.bind_some, if_pos rfl, value?_encode backend h]

/-- An entry without a header of this version reads as nothing. -/
theorem decode?_eq_none (h : ∀ header, header? entry = some header → header.version ≠ version) :
    decode? decode entry = none := by
  rw [decode?]
  cases hheader : header? entry with
  | none => rfl
  | some header => rw [Option.bind_some, if_neg (h header hheader)]

end CacheEntry

namespace CacheStore

variable {α : Type} {s s' : CacheStore} {key other : CacheKey}

/-! ## One operation -/

theorem exists_set (h : s ≠ offline) (name : String) (bytes : Bytes) :
    ∃ s', s.set name bytes = .ok s' := by
  cases s with
  | memory entries => exact ⟨_, rfl⟩
  | folder id files => exact ⟨_, rfl⟩
  | offline => exact absurd rfl h

theorem entry?_set {bytes : Bytes} (h : s.set key.name bytes = .ok s') :
    s'.entry? key = some bytes := by
  cases s with
  | memory entries =>
      cases h
      exact Entries.get?_put_self bytes
  | folder id files =>
      cases h
      exact Entries.get?_put_self bytes
  | offline => cases h

theorem entry?_set_of_ne (hother : other ≠ key) {bytes : Bytes}
    (h : s.set other.name bytes = .ok s') : s'.entry? key = s.entry? key := by
  have hname : key.name ≠ other.name := fun heq => hother (CacheKey.name_inj.1 heq).symm
  cases s with
  | memory entries =>
      cases h
      exact Entries.get?_put_of_ne hname bytes
  | folder id files =>
      cases h
      exact Entries.get?_put_of_ne (mt id.path_inj.1 hname) bytes
  | offline => cases h

theorem entry?_erase_of_ne (hother : other ≠ key) (h : s.erase other = .ok s') :
    s'.entry? key = s.entry? key := by
  have hname : key.name ≠ other.name := fun heq => hother (CacheKey.name_inj.1 heq).symm
  cases s with
  | memory entries =>
      cases h
      exact Entries.get?_remove_of_ne hname
  | folder id files =>
      cases h
      exact Entries.get?_remove_of_ne (mt id.path_inj.1 hname)
  | offline => cases h

/-! ## Operations on other keys -/

/-- What a store can become while nothing is written or erased under one key. -/
inductive EditedBeside (key : CacheKey) (s : CacheStore) : CacheStore → Prop where
  | same : EditedBeside key s s
  | written {t t' other bytes} (before : EditedBeside key s t) (beside : other ≠ key)
      (next : t.set (CacheKey.name other) bytes = .ok t') : EditedBeside key s t'
  | erased {t t' other} (before : EditedBeside key s t) (beside : other ≠ key)
      (next : t.erase other = .ok t') : EditedBeside key s t'

theorem EditedBeside.entry?_eq (h : EditedBeside key s s') : s'.entry? key = s.entry? key := by
  induction h with
  | same => rfl
  | written _ beside next ih => rw [entry?_set_of_ne beside next, ih]
  | erased _ beside next ih => rw [entry?_erase_of_ne beside next, ih]

/-- The write succeeds, and then `read` answers `answer` for as long as only other keys are written
or erased. -/
def ReadsBack (key : CacheKey) (write : Except LedgerError CacheStore) (read : CacheStore → α)
    (answer : α) : Prop :=
  ∃ s, write = .ok s ∧ ∀ s', EditedBeside key s s' → read s' = answer

theorem readsBack_set (h : s ≠ offline) (key : CacheKey) {bytes : Bytes} {read : CacheStore → α}
    {answer : α} (hread : ∀ s', s'.entry? key = some bytes → read s' = answer) :
    ReadsBack key (s.set key.name bytes) read answer := by
  obtain ⟨written, hset⟩ := exists_set h key.name bytes
  refine ⟨written, hset, ?_⟩
  intro s' hedited
  apply hread
  rw [hedited.entry?_eq, entry?_set hset]

theorem load?_of_entry {bytes : Bytes} (h : s.entry? key = some bytes) (decode : Json → Option α) :
    s.load? key decode = CacheEntry.decode? decode bytes := by
  rw [load?, h, Option.bind_some]

theorem load?_of_store {backend : String} {value : Json} (h : s.store key backend value = .ok s')
    (hvalue : value.isIntegral = true) {t : CacheStore} (hedited : EditedBeside key s' t)
    (decode : Json → Option α) : t.load? key decode = decode value := by
  have hentry : t.entry? key = some (CacheEntry.encode backend value) := by
    rw [hedited.entry?_eq, entry?_set h]
  rw [load?_of_entry hentry, CacheEntry.decode?_encode backend hvalue]

theorem readsBack_store (h : s ≠ offline) (key : CacheKey) (backend : String) {value : Json}
    (hvalue : value.isIntegral = true) {decode : Json → Option α} {answer : α}
    (hdecode : decode value = some answer) :
    ReadsBack key (s.store key backend value) (·.load? key decode) (some answer) := by
  obtain ⟨written, hwrite⟩ := exists_set h key.name (CacheEntry.encode backend value)
  refine ⟨written, hwrite, ?_⟩
  intro s' hedited
  exact (load?_of_store hwrite hvalue hedited decode).trans hdecode

theorem readsBack_storeText (h : s ≠ offline) (key : CacheKey) (backend text : String) :
    ReadsBack key (s.storeText key backend text) (·.loadText? key) (some text) :=
  readsBack_store h key backend rfl rfl

theorem readsBack_storeAmount (h : s ≠ offline) (key : CacheKey) (backend : String)
    (amount : UInt64) :
    ReadsBack key (s.storeAmount key backend amount) (·.loadAmount? key) (some amount) := by
  obtain ⟨written, hwrite, hread⟩ := readsBack_storeText h key backend (toString amount)
  refine ⟨written, hwrite, ?_⟩
  intro s' hedited
  have htext : s'.loadText? key = some (toString amount) := hread s' hedited
  change s'.loadAmount? key = some amount
  rw [loadAmount?, htext, Option.bind_some, Integer.u64?_toString]

/-- Canonical data are read back from the key that they are put under, whatever that key, the
backend and the data are, and whatever becomes of the other keys. Bytes whose header cannot be read
or has another version read as nothing. -/
theorem canonical_readsBack (h : s ≠ offline) (key : CacheKey) (backend : String) :
    (∀ us : List Unspent, ReadsBack key (s.store key backend (.array (us.map Unspent.toJson)))
      (·.load? key (Json.list? Unspent.ofJson?)) (some us)) ∧
    (∀ es : List HistoryEntry,
      ReadsBack key (s.store key backend (.array (es.map HistoryEntry.toJson)))
        (·.load? key (Json.list? HistoryEntry.ofJson?)) (some es)) ∧
    (∀ fees : Fees,
      ReadsBack key (s.store key backend fees.toJson) (·.load? key Fees.ofJson?) (some fees)) ∧
    (∀ amount : UInt64,
      ReadsBack key (s.storeAmount key backend amount) (·.loadAmount? key) (some amount)) ∧
    (∀ text : String,
      ReadsBack key (s.storeText key backend text) (·.loadText? key) (some text)) ∧
    ∀ bytes : Bytes,
      (∀ header, CacheEntry.header? bytes = some header → header.version ≠ CacheEntry.version) →
      ∀ {α : Type} (decode : Json → Option α),
        ReadsBack key (s.set key.name bytes) (·.load? key decode) none := by
  refine ⟨?_, ?_, ?_, ?_, ?_, ?_⟩
  · intro us
    exact readsBack_store h key backend (Json.isIntegral_map Unspent.isIntegral_toJson us)
      (Json.list?_map Unspent.ofJson?_toJson us)
  · intro es
    exact readsBack_store h key backend (Json.isIntegral_map HistoryEntry.isIntegral_toJson es)
      (Json.list?_map HistoryEntry.ofJson?_toJson es)
  · intro fees
    exact readsBack_store h key backend fees.isIntegral_toJson fees.ofJson?_toJson
  · exact readsBack_storeAmount h key backend
  · exact readsBack_storeText h key backend
  · intro bytes hversion α decode
    apply readsBack_set h
    intro s' hentry
    rw [load?_of_entry hentry, CacheEntry.decode?_eq_none hversion]

/-- An entry as it would be written under version 0. -/
def olderEntry : Bytes :=
  utf8Bytes "\x7b\"version\":0,\"backend\":\"blockcypher\",\"value\":\"1\"\x7d"

theorem canonical_readsBack_mixed : ∃ s s' s'' : CacheStore,
    empty.storeAmount .balance "blockcypher" (.ofNat (UInt64.size - 1)) = .ok s ∧
    s.storeText .wif "rest.bitcoin.com" "K\n\"" = .ok s' ∧
    s'.set CacheKey.fees.name olderEntry = .ok s'' ∧
    s''.loadAmount? .balance = some (.ofNat (UInt64.size - 1)) ∧
    s''.loadText? .wif = some "K\n\"" ∧ s''.loadText? .fees = none := by
  obtain ⟨-, -, -, hamount, -⟩ := canonical_readsBack (s := empty) nofun .balance "blockcypher"
  obtain ⟨s, hwritten, hbalance⟩ := hamount (.ofNat (UInt64.size - 1))
  have hs : s ≠ offline := by
    cases hwritten
    exact nofun
  obtain ⟨-, -, -, -, htext, -⟩ := canonical_readsBack hs .wif "rest.bitcoin.com"
  obtain ⟨s', hwritten', hwif⟩ := htext "K\n\""
  have hs' : s' ≠ offline := by
    cases hwritten
    cases hwritten'
    exact nofun
  obtain ⟨-, -, -, -, -, hversion⟩ := canonical_readsBack hs' .fees "blockcypher"
  have holder : ∀ header, CacheEntry.header? olderEntry = some header →
      header.version ≠ CacheEntry.version := by
    have hzero : (CacheEntry.header? olderEntry).map CacheEntry.Header.version = some 0 := by
      decide +kernel
    intro header hheader
    rw [hheader] at hzero
    rw [Option.some_inj.1 hzero]
    decide
  obtain ⟨s'', hset, hfees⟩ := hversion olderEntry holder Json.string?
  refine ⟨s, s', s'', hwritten, hwritten', hset, ?_, ?_, hfees s'' .same⟩
  · exact hbalance s'' (.written (.written .same (by decide) hwritten') (by decide) hset)
  · exact hwif s'' (.written .same (by decide) hset)

end CacheStore

end CashWallet
