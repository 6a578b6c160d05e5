import CashWallet.Ledger.Submission
import CashWallet.Proofs.Results
import CashWallet.Proofs.TxId

/-!
# The ids that submissions end with

A reply shows a text, and the id in it is given back in lower case without the blank space and the
quote marks around it. What is given back is the display form of an id, unless blank space stands
between a quote mark and the digits: it is passed over by the reading of the id and given back with
it.
-/

namespace CashWallet

open Results

/-! ## From the text that is shown to the id -/

/-- A text without the quote marks around it, and the blank space around these. -/
def unquoted (text : String) : List Char :=
  Text.stripChars (· == '"') (Text.trimChars text.toList)

/-- Blank space stands at an end of what is between the quote marks. -/
def PaddedInQuotes (text : String) : Prop :=
  ∃ c, Text.isBlank c = true ∧ ((unquoted text).head? = some c ∨ (unquoted text).getLast? = some c)

theorem not_paddedInQuotes_iff {text : String} :
    ¬ PaddedInQuotes text ↔ Text.trimChars (unquoted text) = unquoted text := by
  rw [Text.trimChars, Text.stripChars_eq_self_iff, PaddedInQuotes]
  constructor
  · intro h
    refine ⟨fun c hc => ?_, fun c hc => ?_⟩
    · exact eq_false_of_ne_true fun hblank => h ⟨c, hblank, .inl hc⟩
    · exact eq_false_of_ne_true fun hblank => h ⟨c, hblank, .inr hc⟩
  · rintro ⟨hfirst, hlast⟩ ⟨c, hblank, hc | hc⟩
    · exact Bool.false_ne_true ((hfirst c hc).symm.trans hblank)
    · exact Bool.false_ne_true ((hlast c hc).symm.trans hblank)

/-- What is given back for a text: the display form of an id with blank space around it, and without
any exactly if the text has none between its quote marks. -/
structure GivesBack (text given : String) : Prop where
  read : ∃ id, TxId.ofHex given = .ok id ∧ Text.trim given = id.toHex
  canonical : TxId.IsCanonical given ↔ ¬ PaddedInQuotes text

theorem txIdText_eq_ok_iff {text given : String} : txIdText text = .ok given ↔
    (∃ id : TxId, id.Displays (Text.trimChars (unquoted text))) ∧
      given = String.ofList ((unquoted text).map Char.toLower) := by
  have hread (id : TxId) : TxId.ofHex (String.ofList (unquoted text)) = .ok id ↔
      id.Displays (Text.trimChars (unquoted text)) := by
    rw [TxId.ofHex_eq_ok_iff, String.toList_ofList]
  simp only [← hread, txIdText]
  rw [← unquoted]
  cases TxId.ofHex (String.ofList (unquoted text)) with
  | error fault => simp
  | ok id => simp [eq_comm]

theorem givesBack_of_txIdText {text given : String} (h : txIdText text = .ok given) :
    GivesBack text given := by
  obtain ⟨⟨id, hid⟩, rfl⟩ := txIdText_eq_ok_iff.1 h
  have htrim : Text.trim (String.ofList ((unquoted text).map Char.toLower)) = id.toHex := by
    rw [Text.trim, String.toList_ofList, Text.trimChars, Text.stripChars_map Text.isBlank_toLower,
      ← Text.trimChars, hid, String.ofList_toList]
  refine ⟨⟨id, ?_, htrim⟩, ?_⟩
  · rw [TxId.ofHex_eq_ok_iff, ← Text.toList_trim, htrim]
    exact id.displays_toHex
  · rw [not_paddedInQuotes_iff]
    constructor
    · intro hcanonical
      have hdigits : ∀ c ∈ unquoted text, Text.isBlank c = false := by
        intro c hc
        apply Hex.isBlank_digits c
        apply Hex.mem_digits_of_toLower
        apply hcanonical.digits
        rw [String.toList_ofList]
        exact List.mem_map_of_mem hc
      exact Text.stripChars_eq_self hdigits
    · intro hbare
      rw [hbare] at hid
      rw [hid, String.ofList_toList]
      exact id.isCanonical_toHex

/-! ## From the reply to the text -/

/-- A reply that is accepted shows a text as the id: at the pointer of the schema, or as a whole. -/
def BroadcastMapping.Shows (m : BroadcastMapping) (outcome : Outcome) (text : String) : Prop :=
  ∃ reply, SubmissionReply.ofOutcome m.errorField outcome = .ok reply ∧ m.txId? reply = some text

theorem BroadcastMapping.result_eq_ok_iff {m : BroadcastMapping} {outcome : Outcome}
    {given : String} :
    m.result outcome = .ok given ↔ ∃ text, m.Shows outcome text ∧ txIdText text = .ok given := by
  rw [result, bind_eq_ok_iff]
  constructor
  · rintro ⟨reply, hreply, h⟩
    split at h
    · next text htext => exact ⟨text, ⟨reply, hreply, htext⟩, h⟩
    · cases h
  · rintro ⟨text, ⟨reply, hreply, htext⟩, h⟩
    refine ⟨reply, hreply, ?_⟩
    rw [htext]
    exact h

/-- A reply to a submitted draft that is accepted shows a text as the id, at the pointer of the
schema. -/
def TwoPhaseMapping.Shows (m : TwoPhaseMapping) (outcome : Outcome) (text : String) : Prop :=
  ∃ j, SubmissionReply.ofOutcome m.errorField outcome = .ok (.value j) ∧
    j.textAt? m.txid = some text

theorem TwoPhaseMapping.result_eq_ok_iff {m : TwoPhaseMapping} {outcome : Outcome}
    {given : String} :
    m.result outcome = .ok given ↔ ∃ text, m.Shows outcome text ∧ txIdText text = .ok given := by
  rw [result, bind_eq_ok_iff]
  constructor
  · rintro ⟨reply, hreply, h⟩
    cases reply with
    | text s => cases h
    | value j =>
        dsimp only at h
        split at h
        · next text htext => exact ⟨text, ⟨j, hreply, htext⟩, h⟩
        · cases h
  · rintro ⟨text, ⟨j, hreply, htext⟩, h⟩
    refine ⟨.value j, hreply, ?_⟩
    dsimp only
    rw [htext]
    exact h

namespace LedgerClient

variable {c : LedgerClient} {answer : List Request → Outcome} {given : String}

/-- What a push ends with is told by the reply to its only request. -/
theorem push_run (raw : String) : (c.push raw).run answer =
    c.schema.broadcast.result (answer ((c.push raw).requests answer)) := rfl

/-- A draft is only submitted where the schema tells how, and what that ends with is told by the
reply to the only request. -/
theorem sendDraft_run {draft : Draft} {s : DraftSignatures}
    (h : (c.sendDraft draft s).run answer = .ok given) :
    ∃ m, c.schema.twoPhase = some m ∧
      m.result (answer ((c.sendDraft draft s).requests answer)) = .ok given := by
  cases hm : c.schema.twoPhase with
  | none =>
      rw [sendDraft, hm] at h
      cases h
  | some m =>
      refine ⟨m, rfl, ?_⟩
      rw [sendDraft, hm] at h ⊢
      dsimp only at h ⊢
      cases hcheck : draft.check s with
      | error fault =>
          rw [hcheck] at h
          cases h
      | ok _ =>
          rw [hcheck] at h
          cases hbody : TwoPhaseMapping.signedBody? draft.body s with
          | none =>
              rw [hbody] at h
              cases h
          | some body =>
              rw [hbody] at h
              exact h

/-- Whatever a backend replies to a push or to a submitted draft: if this ends with an id, the reply
shows a text, and what is given back for the text is the display form of an id, with nothing around
it exactly if the text has no blank space between its quote marks. -/
theorem submitted_canonical (c : LedgerClient) (answer : List Request → Outcome) (given : String) :
    (∀ raw, (c.push raw).run answer = .ok given →
      ∃ text, c.schema.broadcast.Shows (answer ((c.push raw).requests answer)) text ∧
        GivesBack text given) ∧
    (∀ draft s, (c.sendDraft draft s).run answer = .ok given →
      ∃ m text, c.schema.twoPhase = some m ∧
        m.Shows (answer ((c.sendDraft draft s).requests answer)) text ∧ GivesBack text given) := by
  constructor
  · intro raw h
    rw [push_run, BroadcastMapping.result_eq_ok_iff] at h
    obtain ⟨text, hshows, htext⟩ := h
    exact ⟨text, hshows, givesBack_of_txIdText htext⟩
  · intro draft s h
    obtain ⟨m, hm, hresult⟩ := sendDraft_run h
    obtain ⟨text, hshows, htext⟩ := TwoPhaseMapping.result_eq_ok_iff.1 hresult
    exact ⟨m, text, hm, hshows, givesBack_of_txIdText htext⟩

/-- A client whose backend answers a push by the id alone. -/
def plainClient : LedgerClient :=
  ⟨.bitcoinCom .mainnet, none⟩

/-- A client whose backend builds transactions. -/
def draftClient : LedgerClient :=
  ⟨.blockcypher .mainnet, none⟩

def shownId : String :=
  "56944c5d3f98413ef45cf54545538103cc9f298e0575820ad3591376e2e0f65d"

theorem submitted_canonical_shown :
    let pushed := plainClient.push "00"
    let sent := draftClient.sendDraft ⟨[], 0, .object []⟩ ⟨[], []⟩
    let bare := fun _ =>
      .reply 200 "\"56944C5D3F98413EF45CF54545538103CC9F298E0575820AD3591376E2E0F65D\""
    let wrapped := fun _ =>
      .reply 201 ("\x7b\"tx\":\x7b\"hash\":\"" ++ shownId ++ "\"\x7d\x7d")
    (pushed.run bare = .ok shownId ∧ ∃ text,
      plainClient.schema.broadcast.Shows (bare (pushed.requests bare)) text ∧
        GivesBack text shownId) ∧
    (sent.run wrapped = .ok shownId ∧ ∃ m text, draftClient.schema.twoPhase = some m ∧
      m.Shows (wrapped (sent.requests wrapped)) text ∧ GivesBack text shownId) := by
  intro pushed sent bare wrapped
  have hpushed : pushed.run bare = .ok shownId := eq_ok_of_toOption (by decide +kernel)
  have hsent : sent.run wrapped = .ok shownId := eq_ok_of_toOption (by decide +kernel)
  exact ⟨⟨hpushed, (submitted_canonical plainClient bare shownId).1 "00" hpushed⟩,
    hsent, (submitted_canonical draftClient wrapped shownId).2 _ _ hsent⟩

/-- A line break behind the opening quote mark is given back with the id. -/
theorem submitted_canonical_padded :
    (plainClient.push "00").run (fun _ => .reply 200 ("\"\n" ++ shownId ++ "\"")) =
        .ok ("\n" ++ shownId) ∧
      ¬ TxId.IsCanonical ("\n" ++ shownId) := by
  constructor
  · exact eq_ok_of_toOption (by decide +kernel)
  · intro h
    have hbreak : '\n' ∈ ("\n" ++ shownId).toList := by
      rw [String.toList_append]
      exact List.mem_append_left _ (List.mem_singleton_self '\n')
    exact absurd (h.digits '\n' hbreak) (by decide)

end LedgerClient

end CashWallet
