import CashWallet.Proofs.Ledger.Drafts
import CashWallet.Proofs.Ledger.SubmittedIds

/-!
# Refused submissions

One judgement stands before whatever else is read from the reply to a submission. The reply refuses
by a status that is no success, or by an object with an error in it, and then its words are kept as
they are. Otherwise it is searched for an id or a draft. Blank replies and replies in which nothing
is found are faults of their own, so that refused is exactly what the backend refuses.
-/

namespace CashWallet

open Results

variable {errorField : String} {status : Nat} {body : String} {j : Json} {α : Type}

/-! ## The judgement -/

/-- A reply refuses a submission: its status is no success, or it is an object with an error field
that is neither null nor the empty array. -/
def Refuses (errorField : String) (status : Nat) (body : String) : Prop :=
  ¬ (200 ≤ status ∧ status ≤ 299) ∨
    ∃ members error, Json.read? (Text.trim body) = some (.object members) ∧
      (errorField, error) ∈ members ∧ error ≠ .null ∧ error ≠ .array []

theorem Outcome.isSuccess_iff : Outcome.isSuccess status = true ↔ 200 ≤ status ∧ status ≤ 299 := by
  rw [Outcome.isSuccess, Bool.and_eq_true, decide_eq_true_eq, decide_eq_true_eq, Nat.lt_succ_iff]

namespace SubmissionReply

theorem tellsError_object_iff {members : List (String × Json)} (h : Json.Ordered members) :
    tellsError (.object members) errorField = true ↔
      ∃ error, (errorField, error) ∈ members ∧ error ≠ .null ∧ error ≠ .array [] := by
  simp only [← h.member?_eq_some_iff, tellsError, Json.field?]
  cases Json.member? errorField members with
  | none => simp
  | some error =>
      rcases error with _ | _ | _ | _ | (_ | _) | _ | _ <;> simp

/-- A document refuses by the error that it tells of. -/
theorem refuses_iff_of_read (hread : Json.read? (Text.trim body) = some j) :
    Refuses errorField status body ↔
      ¬ Outcome.isSuccess status = true ∨ tellsError j errorField = true := by
  rw [Refuses, ← Outcome.isSuccess_iff, hread]
  refine or_congr Iff.rfl ?_
  cases j with
  | object members =>
      rw [tellsError_object_iff (Json.ordered_of_read hread)]
      constructor
      · rintro ⟨members, error, ⟨⟩, herror⟩
        exact ⟨error, herror⟩
      · rintro ⟨error, herror⟩
        exact ⟨members, error, rfl, herror⟩
  | _ => simp [tellsError, Json.field?]

/-- What is no document refuses by its status alone. -/
theorem refuses_iff_of_unread (hread : Json.read? (Text.trim body) = none) :
    Refuses errorField status body ↔ ¬ Outcome.isSuccess status = true := by
  rw [Refuses, ← Outcome.isSuccess_iff, hread]
  simp

/-- What a reply says, whether or not it refuses. -/
def ofBody (body : String) : SubmissionReply :=
  (Json.read? (Text.trim body)).elim (.text (Text.trim body)) .value

theorem ofBody_eq_value_iff : ofBody body = .value j ↔ Json.read? (Text.trim body) = some j := by
  rw [ofBody]
  cases Json.read? (Text.trim body) <;> simp

theorem ofOutcome_of_refuses (h : Refuses errorField status body) :
    ofOutcome errorField (.reply status body) = .error (.rejected body) := by
  by_cases hsuccess : Outcome.isSuccess status = true
  · cases hread : Json.read? (Text.trim body) with
    | none => exact absurd hsuccess ((refuses_iff_of_unread hread).1 h)
    | some j =>
        have herror := ((refuses_iff_of_read hread).1 h).resolve_left (not_not_intro hsuccess)
        rw [ofOutcome_document hsuccess hread, if_pos herror]
  · rw [ofOutcome, eq_false_of_ne_true hsuccess]
    rfl

theorem ofOutcome_of_blank (h : ¬ Refuses errorField status body)
    (hblank : Outcome.isBlank body = true) :
    ofOutcome errorField (.reply status body) = .error .emptySubmission := by
  rw [refuses_iff_of_unread (Json.read?_of_isBlank hblank), not_not] at h
  rw [ofOutcome, h, if_neg (by decide), if_pos hblank]

theorem ofOutcome_of_accepted (h : ¬ Refuses errorField status body)
    (hfilled : Outcome.isBlank body = false) :
    ofOutcome errorField (.reply status body) = .ok (ofBody body) := by
  cases hread : Json.read? (Text.trim body) with
  | none =>
      rw [refuses_iff_of_unread hread, not_not] at h
      rw [ofOutcome, h, if_neg (by decide), hfilled, if_neg (by decide), ofBody, hread]
      rfl
  | some j =>
      rw [refuses_iff_of_read hread, not_or, not_not] at h
      rw [ofOutcome_document h.1 hread, if_neg h.2, ofBody, hread]
      rfl

end SubmissionReply

/-- How a submission ends by the reply to it, if the reply brings what `Finds` says. A reply that
looks like an object, but is none that can be read, never ends it well. -/
structure Judged (errorField : String) (status : Nat) (body : String) (Finds : α → Prop)
    (result : Except LedgerError α) : Prop where
  refused : (∃ words, result = .error (.rejected words)) ↔ Refuses errorField status body
  verbatim : Refuses errorField status body → result = .error (.rejected body)
  blank : 200 ≤ status ∧ status ≤ 299 → Outcome.isBlank body = true →
    result = .error .emptySubmission
  found : ∀ a, result = .ok a ↔
    ¬ Refuses errorField status body ∧ Outcome.isBlank body = false ∧ Finds a
  missed : ¬ Refuses errorField status body → Outcome.isBlank body = false →
    (¬ ∃ a, Finds a) → ∃ cause, result = .error (.mismatch cause)
  unread : '{' ∈ (Text.trim body).toList → Json.read? (Text.trim body) = none →
    ∀ a, result ≠ .ok a

/-- A fault of the search for what a reply should bring. -/
def IsMismatch (fault : LedgerError) : Prop :=
  ∃ cause, fault = .mismatch cause

theorem mismatch_isMismatch (cause : Mismatch) : IsMismatch (.mismatch cause) :=
  ⟨cause, rfl⟩

/-- A reply refuses, is blank, or is searched, and each of these ends a submission in one way. -/
theorem Judged.of_cases {Finds : α → Prop} {result : Except LedgerError α}
    (hrefused : Refuses errorField status body → result = .error (.rejected body))
    (hblank : ¬ Refuses errorField status body → Outcome.isBlank body = true →
      result = .error .emptySubmission)
    (hsearched : ¬ Refuses errorField status body → Outcome.isBlank body = false →
      FailsWith IsMismatch result ∧ ∀ a, result = .ok a ↔ Finds a)
    (hread : ∀ a, Finds a → Json.read? (Text.trim body) = none →
      '{' ∉ (Text.trim body).toList) :
    Judged errorField status body Finds result := by
  have hfound (a : α) : result = .ok a ↔
      ¬ Refuses errorField status body ∧ Outcome.isBlank body = false ∧ Finds a := by
    constructor
    · intro h
      have haccepted : ¬ Refuses errorField status body := by
        intro hr
        cases (hrefused hr).symm.trans h
      have hfilled : Outcome.isBlank body = false := by
        apply eq_false_of_ne_true
        intro hb
        cases (hblank haccepted hb).symm.trans h
      exact ⟨haccepted, hfilled, ((hsearched haccepted hfilled).2 a).1 h⟩
    · rintro ⟨haccepted, hfilled, h⟩
      exact ((hsearched haccepted hfilled).2 a).2 h
  refine ⟨⟨?_, fun h => ⟨body, hrefused h⟩⟩, hrefused, ?_, hfound, ?_, ?_⟩
  · rintro ⟨words, hwords⟩
    by_contra h
    cases hb : Outcome.isBlank body with
    | true => cases (hblank h hb).symm.trans hwords
    | false =>
        obtain ⟨cause, hcause⟩ := (hsearched h hb).1 _ hwords
        cases hcause
  · intro hstatus hb
    apply hblank _ hb
    rw [SubmissionReply.refuses_iff_of_unread (Json.read?_of_isBlank hb), not_not]
    exact Outcome.isSuccess_iff.2 hstatus
  · intro h hb hnone
    obtain ⟨hmissed, hfinds⟩ := hsearched h hb
    cases result with
    | ok a => exact absurd ⟨a, (hfinds a).1 rfl⟩ hnone
    | error fault => exact (hmissed fault rfl).imp fun _ hcause => congrArg _ hcause
  · intro hbrace hunread a h
    exact hread a ((hfound a).1 h).2.2 hunread hbrace

/-- Whatever is searched for in a reply, the judgement stands before the search. -/
theorem SubmissionReply.judged_of_bind {Finds : α → Prop}
    {f : SubmissionReply → Except LedgerError α}
    (hfinds : ¬ Refuses errorField status body → Outcome.isBlank body = false →
      ∀ a, (ofOutcome errorField (.reply status body) >>= f) = .ok a ↔ Finds a)
    (hmissed : FailsWith IsMismatch (ofOutcome errorField (.reply status body)) →
      FailsWith IsMismatch (ofOutcome errorField (.reply status body) >>= f))
    (hread : ∀ a, Finds a → Json.read? (Text.trim body) = none →
      '{' ∉ (Text.trim body).toList) :
    Judged errorField status body Finds (ofOutcome errorField (.reply status body) >>= f) := by
  apply Judged.of_cases ?_ ?_ ?_ hread
  · intro h
    rw [ofOutcome_of_refuses h]
    rfl
  · intro h hb
    rw [ofOutcome_of_blank h hb]
    rfl
  · intro h hb
    refine ⟨hmissed ?_, hfinds h hb⟩
    rw [ofOutcome_of_accepted h hb]
    exact failsWith_ok _

/-! ## What is searched for -/

/-- An id stands in a text, between quote marks and blank space, and is given back in lower case. -/
def GivesId (text given : String) : Prop :=
  (∃ id : TxId, id.Displays (Text.trimChars (unquoted text))) ∧
    given = String.ofList ((unquoted text).map Char.toLower)

/-- Around an id stand quote marks and blank space only. -/
theorem GivesId.chars {text given : String} (h : GivesId text given) {c : Char}
    (hc : c ∈ text.toList) : Text.isBlank c = true ∨ (c == '"') = true ∨ c ∈ Hex.digits := by
  obtain ⟨⟨id, hid⟩, -⟩ := h
  by_contra hother
  rw [not_or, not_or] at hother
  obtain ⟨hblank, hmark, hdigit⟩ := hother
  have hbare : c ∈ unquoted text := Text.mem_stripChars (Text.mem_stripChars hc hblank) hmark
  exact hdigit (hid.digits c (Text.mem_stripChars hbare hblank))

theorem Json.textAt?_eq_some_iff {pointer text : String} :
    j.textAt? pointer = some text ↔ j.pointer? pointer = some (.string text) := by
  rw [textAt?]
  cases j.pointer? pointer with
  | none => simp
  | some found => cases found <;> simp [string?]

/-- The text in which a reply shows an id: all of it if it is no document; otherwise the text at the
pointer of the schema, or the document as a text if there is no pointer. -/
inductive BroadcastMapping.Carries (m : BroadcastMapping) (body : String) : String → Prop
  | bare (unread : Json.read? (Text.trim body) = none) : Carries m body (Text.trim body)
  | pointed (j : Json) (pointer text : String) (read : Json.read? (Text.trim body) = some j)
      (leads : m.txid = some pointer) (found : j.pointer? pointer = some (.string text)) :
      Carries m body text
  | whole (text : String) (read : Json.read? (Text.trim body) = some (.string text))
      (leads : m.txid = none) : Carries m body text

theorem BroadcastMapping.txId?_ofBody {m : BroadcastMapping} {text : String} :
    m.txId? (.ofBody body) = some text ↔ m.Carries body text := by
  constructor
  · intro h
    rw [SubmissionReply.ofBody] at h
    cases hread : Json.read? (Text.trim body) with
    | none =>
        rw [hread] at h
        cases h
        exact .bare hread
    | some j =>
        rw [hread, Option.elim_some, txId?] at h
        cases hm : m.txid with
        | some pointer =>
            rw [hm] at h
            exact .pointed j pointer text hread hm (Json.textAt?_eq_some_iff.1 h)
        | none =>
            rw [hm] at h
            cases j <;> cases h
            exact .whole text hread hm
  · intro h
    rw [SubmissionReply.ofBody]
    cases h with
    | bare hread =>
        rw [hread]
        rfl
    | pointed j pointer text hread hm hfound =>
        rw [hread, Option.elim_some, txId?, hm]
        exact Json.textAt?_eq_some_iff.2 hfound
    | whole text hread hm =>
        rw [hread, Option.elim_some, txId?, hm]
        rfl

/-- A reply to a push brings an id. -/
def BroadcastMapping.BringsId (m : BroadcastMapping) (body given : String) : Prop :=
  ∃ text, m.Carries body text ∧ GivesId text given

/-- A reply to a submitted draft brings an id: the text of it is at the pointer of the schema. -/
def TwoPhaseMapping.BringsId (m : TwoPhaseMapping) (body given : String) : Prop :=
  ∃ j text, Json.read? (Text.trim body) = some j ∧ j.pointer? m.txid = some (.string text) ∧
    GivesId text given

/-- A reply brings a draft: it is a document with a list of texts as the digests, and zero stands
for a fee that it does not tell. -/
structure TwoPhaseMapping.BringsDraft (m : TwoPhaseMapping) (body : String) (draft : Draft) :
    Prop where
  read : Json.read? (Text.trim body) = some draft.body
  digests : draft.body.pointer? m.digests = some (texts draft.digests)
  fee : draft.fee = ((draft.body.pointer? m.fee).bind Json.uint64?).getD 0

/-! ## The submissions -/

theorem BroadcastMapping.judged (m : BroadcastMapping) (status : Nat) (body : String) :
    Judged m.errorField status body (m.BringsId body) (m.result (.reply status body)) := by
  apply SubmissionReply.judged_of_bind
  · intro haccepted hfilled given
    have hreply := SubmissionReply.ofOutcome_of_accepted haccepted hfilled
    rw [← result, result_eq_ok_iff]
    simp only [Shows, hreply, Except.ok.injEq, exists_eq_left', txId?_ofBody, txIdText_eq_ok_iff]
    rfl
  · intro hreply
    apply hreply.bind
    intro reply _
    split
    · exact txIdText_failsWith mismatch_isMismatch _
    · exact failsWith_error ⟨_, rfl⟩
  · rintro given ⟨text, hcarries, hgives⟩ hunread hbrace
    cases hcarries with
    | bare _ => exact absurd (hgives.chars hbrace) (by decide)
    | pointed _ _ _ hread _ _ => cases hunread.symm.trans hread
    | whole _ hread _ => cases hunread.symm.trans hread

namespace TwoPhaseMapping

variable {m : TwoPhaseMapping}

theorem judged (m : TwoPhaseMapping) (status : Nat) (body : String) :
    Judged m.errorField status body (m.BringsId body) (m.result (.reply status body)) := by
  apply SubmissionReply.judged_of_bind
  · intro haccepted hfilled given
    have hreply := SubmissionReply.ofOutcome_of_accepted haccepted hfilled
    rw [← result, result_eq_ok_iff]
    simp only [Shows, hreply, Except.ok.injEq, SubmissionReply.ofBody_eq_value_iff,
      Json.textAt?_eq_some_iff, txIdText_eq_ok_iff]
    constructor
    · rintro ⟨text, ⟨j, hread, hfound⟩, hgives⟩
      exact ⟨j, text, hread, hfound, hgives⟩
    · rintro ⟨j, text, hread, hfound, hgives⟩
      exact ⟨text, ⟨j, hread, hfound⟩, hgives⟩
  · exact result_failsWith mismatch_isMismatch
  · rintro given ⟨j, text, hread, -⟩ hunread
    cases hunread.symm.trans hread

theorem drafted_iff {draft : Draft} (haccepted : ¬ Refuses m.errorField status body) :
    m.Drafted (.reply status body) draft ↔ m.BringsDraft body draft := by
  constructor
  · rintro ⟨⟨_, _, ⟨⟩, -, hread⟩, -, hdigests, hfee⟩
    exact ⟨hread, hdigests, hfee⟩
  · rintro ⟨hread, hdigests, hfee⟩
    rw [SubmissionReply.refuses_iff_of_read hread, not_or, not_not] at haccepted
    obtain ⟨hsuccess, hquiet⟩ := haccepted
    exact ⟨⟨status, body, rfl, hsuccess, hread⟩, eq_false_of_ne_true hquiet, hdigests, hfee⟩

theorem judged_draft (m : TwoPhaseMapping) (status : Nat) (body : String) :
    Judged m.errorField status body (m.BringsDraft body) (m.draft (.reply status body)) := by
  apply SubmissionReply.judged_of_bind
  · intro haccepted _ found
    rw [← draft, draft_eq_ok_iff, drafted_iff haccepted]
  · exact draft_failsWith mismatch_isMismatch
  · rintro found hbrings hunread
    cases hunread.symm.trans hbrings.read

end TwoPhaseMapping

/-- A submission that makes a request ends as the reply to it is judged. One that makes none ends
with a fault of its own, which is no refusal. -/
structure Exchange.Submits (x : Exchange (Except LedgerError α)) (errorField : String)
    (status : Nat) (body : String) (Finds : α → Prop) : Prop where
  asked : x.requests (fun _ => .reply status body) ≠ [] →
    Judged errorField status body Finds (x.run fun _ => .reply status body)
  unasked : x.requests (fun _ => .reply status body) = [] →
    ∃ fault, x.run (fun _ => .reply status body) = .error fault ∧ ∀ words, fault ≠ .rejected words

namespace Exchange

variable {Finds : α → Prop} {result : Outcome → Except LedgerError α}

theorem submits_ask (request : Request)
    (h : Judged errorField status body Finds (result (.reply status body))) :
    (ask request fun outcome => done (result outcome)).Submits errorField status body Finds :=
  ⟨fun _ => h, fun hnone => absurd hnone (List.cons_ne_nil _ _)⟩

theorem submits_done {fault : LedgerError} (h : ∀ words, fault ≠ .rejected words) :
    (done (.error fault) : Exchange (Except LedgerError α)).Submits errorField status body Finds :=
  ⟨fun hsome => absurd rfl hsome, fun _ => ⟨fault, rfl, h⟩⟩

end Exchange

namespace LedgerClient

variable {c : LedgerClient} {m : TwoPhaseMapping}

theorem push_submits (raw : String) :
    (c.push raw).Submits c.schema.broadcast.errorField status body
      (c.schema.broadcast.BringsId body) :=
  Exchange.submits_ask _ (c.schema.broadcast.judged status body)

theorem newDraft_submits (hm : c.schema.twoPhase = some m) (source target : Address)
    (amount : UInt64) :
    (c.newDraft source target amount).Submits m.errorField status body (m.BringsDraft body) := by
  rw [newDraft, hm]
  exact Exchange.submits_ask _ (m.judged_draft status body)

theorem check_faults {draft : Draft} {s : DraftSignatures} :
    FailsWith (fun fault => ∀ words, fault ≠ .rejected words) (draft.check s) := by
  rw [Draft.check]
  split
  · exact failsWith_ok _
  · apply failsWith_error
    rintro words ⟨⟩

theorem sendDraft_submits (hm : c.schema.twoPhase = some m) (draft : Draft)
    (s : DraftSignatures) :
    (c.sendDraft draft s).Submits m.errorField status body (m.BringsId body) := by
  rw [sendDraft, hm]
  dsimp only
  split
  · next fault hcheck => exact Exchange.submits_done (check_faults fault hcheck)
  · split
    · apply Exchange.submits_done
      rintro words ⟨⟩
    · exact Exchange.submits_ask _ (m.judged status body)

/-- A draft is submitted if it has as many signatures as it takes and is an object. -/
theorem requests_sendDraft_iff (hm : c.schema.twoPhase = some m) (draft : Draft)
    (s : DraftSignatures) (answer : List Request → Outcome) :
    (c.sendDraft draft s).requests answer ≠ [] ↔
      draft.check s = .ok () ∧ draft.body.isObject = true := by
  have hbody : (∃ body, TwoPhaseMapping.signedBody? draft.body s = some body) ↔
      draft.body.isObject = true := TwoPhaseMapping.exists_signedBody_iff
  rw [sendDraft, hm, ← hbody]
  dsimp only
  cases draft.check s with
  | error fault => simp [Exchange.requests, Exchange.requestsFrom]
  | ok _ =>
      cases TwoPhaseMapping.signedBody? draft.body s <;>
        simp [Exchange.requests, Exchange.requestsFrom]

/-- Every submission is judged by the reply to its request, whatever the schema: it is refused
exactly if the reply refuses it, and in its words; a blank reply is a fault of the network; it ends
well with exactly what the reply brings, and otherwise with a mismatch. A push and the request for
a draft always ask, and a draft is sent if it is complete. Where the schema has no drafts, nothing
is asked. -/
theorem submissions_judged (c : LedgerClient) (status : Nat) (body : String) :
    let answer := fun _ => Outcome.reply status body
    (∀ raw, (c.push raw).requests answer ≠ [] ∧
      (c.push raw).Submits c.schema.broadcast.errorField status body
        (c.schema.broadcast.BringsId body)) ∧
    (∀ m, c.schema.twoPhase = some m →
      (∀ source target amount, (c.newDraft source target amount).requests answer ≠ [] ∧
        (c.newDraft source target amount).Submits m.errorField status body
          (m.BringsDraft body)) ∧
      (∀ draft s, ((c.sendDraft draft s).requests answer ≠ [] ↔
          draft.check s = .ok () ∧ draft.body.isObject = true) ∧
        (c.sendDraft draft s).Submits m.errorField status body (m.BringsId body))) ∧
    (c.schema.twoPhase = none →
      (∀ source target amount, (c.newDraft source target amount).requests answer = [] ∧
        (c.newDraft source target amount).run answer =
          .error (.unsupported c.schema.name "create draft")) ∧
      (∀ draft s, (c.sendDraft draft s).requests answer = [] ∧
        (c.sendDraft draft s).run answer =
          .error (.unsupported c.schema.name "submit draft"))) := by
  intro answer
  refine ⟨fun raw => ⟨List.cons_ne_nil _ _, push_submits raw⟩, ?_, ?_⟩
  · intro m hm
    refine ⟨fun source target amount => ⟨?_, newDraft_submits hm source target amount⟩,
      fun draft s => ⟨requests_sendDraft_iff hm draft s answer, sendDraft_submits hm draft s⟩⟩
    rw [newDraft, hm]
    exact List.cons_ne_nil _ _
  · intro hm
    refine ⟨fun source target amount => ?_, fun draft s => ?_⟩
    · rw [newDraft, hm]
      exact ⟨rfl, rfl⟩
    · rw [sendDraft, hm]
      exact ⟨rfl, rfl⟩

def emptyDraft : Draft :=
  ⟨[], 0, .object []⟩

/-- A reply of success with an error in it. -/
def markedReply : String :=
  "\x7b\"errors\":[\x7b\"error\":\"no funds\"\x7d]\x7d\n"

/-- A reply with an id and an empty list of errors. -/
def unmarkedReply : String :=
  "\x7b\"errors\":[],\"tx\":\x7b\"hash\":\"" ++ shownId ++ "\"\x7d\x7d"

theorem refuses_markedReply : Refuses "errors" 201 markedReply := by
  have htells : (Json.read? (Text.trim markedReply)).map
      (SubmissionReply.tellsError · "errors") = some true := by
    decide +kernel
  obtain ⟨j, hread, herror⟩ := Option.map_eq_some_iff.1 htells
  exact (SubmissionReply.refuses_iff_of_read hread).2 (.inr herror)

/-- A push that is refused by the status, a draft that is refused by an error, and a signed draft
to which a blank reply comes, or one without an error. -/
theorem submissions_judged_replies :
    let address := Address.ofKeyHash (List.replicate 20 0) .mainnet rfl
    let sent := draftClient.sendDraft emptyDraft ⟨[], []⟩
    (plainClient.push "00").run (fun _ => .reply 400 " spent\n") = .error (.rejected " spent\n") ∧
    (draftClient.newDraft address address 7).run (fun _ => .reply 201 markedReply) =
      .error (.rejected markedReply) ∧
    sent.run (fun _ => .reply 201 "\n") = .error .emptySubmission ∧
    sent.run (fun _ => .reply 201 unmarkedReply) = .ok shownId ∧
    ∃ m, draftClient.schema.twoPhase = some m ∧ ¬ Refuses m.errorField 201 unmarkedReply ∧
      m.BringsId unmarkedReply shownId := by
  intro address sent
  obtain ⟨hpushed, hpush⟩ := (submissions_judged plainClient 400 " spent\n").1 "00"
  obtain ⟨hasked, hdraft⟩ :=
    ((submissions_judged draftClient 201 markedReply).2.1 _ rfl).1 address address 7
  obtain ⟨hcomplete, hblank⟩ :=
    ((submissions_judged draftClient 201 "\n").2.1 _ rfl).2 emptyDraft ⟨[], []⟩
  obtain ⟨hcomplete', hquiet⟩ :=
    ((submissions_judged draftClient 201 unmarkedReply).2.1 _ rfl).2 emptyDraft ⟨[], []⟩
  have hstatus : Refuses plainClient.schema.broadcast.errorField 400 " spent\n" :=
    .inl (by decide)
  have hsent : sent.run (fun _ => .reply 201 unmarkedReply) = .ok shownId :=
    eq_ok_of_toOption (by decide +kernel)
  obtain ⟨haccepted, -, hbrings⟩ := ((hquiet.asked (hcomplete'.2 ⟨rfl, rfl⟩)).found shownId).1 hsent
  exact ⟨(hpush.asked hpushed).verbatim hstatus,
    (hdraft.asked hasked).verbatim refuses_markedReply,
    (hblank.asked (hcomplete.2 ⟨rfl, rfl⟩)).blank (by decide) (by decide), hsent,
    _, rfl, haccepted, hbrings⟩

end LedgerClient

end CashWallet
