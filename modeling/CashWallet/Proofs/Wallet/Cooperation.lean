import CashWallet.Proofs.Ledger.Drafts
import CashWallet.Proofs.Transaction.Control
import CashWallet.Proofs.Wallet.Course

/-!
# Payments that the backend builds

A wallet asks the backend for a draft, and submits the draft with its signatures if all of its
digests can be signed. Whatever the backend replies, nothing else is submitted, and a report has the
fee that the draft tells.
-/

namespace CashWallet

namespace LedgerClient

def draftRequest (c : LedgerClient) (m : TwoPhaseMapping) (source target : Address)
    (amount : UInt64) : Request :=
  .post (c.schema.url m.newPath "") c.token (TwoPhaseMapping.draftBody source target amount)

def draftSubmission (c : LedgerClient) (m : TwoPhaseMapping) (body : Json) : Request :=
  .post (c.schema.url m.sendPath "") c.token body

variable {c : LedgerClient} {m : TwoPhaseMapping}

theorem newDraft_eq (hm : c.schema.twoPhase = some m) (source target : Address)
    (amount : UInt64) : c.newDraft source target amount =
      .ask (c.draftRequest m source target amount) fun outcome => .done (m.draft outcome) := by
  rw [newDraft, hm]
  rfl

/-- A draft that was signed as a whole is submitted if it is an object. -/
theorem sendDraft_eq (hm : c.schema.twoPhase = some m) {draft : Draft} {key : PrivateKey}
    {s : DraftSignatures} (hsign : key.signDigests draft.digests = .ok s) :
    c.sendDraft draft s =
      match TwoPhaseMapping.signedBody? draft.body s with
      | none => .done (.error (.mismatch .draftBody))
      | some body => .ask (c.draftSubmission m body) fun outcome => .done (m.result outcome) := by
  rw [sendDraft, hm]
  simp only [PrivateKey.check_of_signDigests hsign]
  rfl

end LedgerClient

open TwoPhaseMapping (OfReply)

/-- A payment by a draft: the reply to the request for the draft, what is submitted after that, what
the reply to the submission comes to, and what the payment comes to. -/
structure Cooperation (key : PrivateKey) (m : TwoPhaseMapping) (reply : Outcome)
    (submitted : Option Json) (answer : Except LedgerError String)
    (result : Except WalletError SendReport) : Prop where
  submits : (∃ body, submitted = some body) ↔ ∃ draft, m.Drafted reply draft ∧
    draft.body.isObject = true ∧ ∀ digest ∈ draft.digests, ∃ sig, key.Signs digest sig
  completed : ∀ body, submitted = some body →
    ∃ draft, m.Drafted reply draft ∧ draft.CompletedBy key body
  refused : (∀ draft, m.Drafted reply draft → ∃ digest ∈ draft.digests,
    ∀ bytes, Hex.decode digest = .ok bytes → bytes.length ≠ 32) → submitted = none
  withheld : submitted = none → ∃ fault, result = .error fault
  taken : ∀ body txid, submitted = some body → answer = .ok txid →
    ∃ report, result = .ok report ∧ report.txid = txid
  reported : ∀ report, result = .ok report →
    ∃ draft, m.Drafted reply draft ∧ report.fee = draft.fee ∧ report.change = 0
  counted : ∀ wanted signatures publicKeys,
    result ≠ .error (.ledger (.transaction (.draftSignatures wanted signatures publicKeys)))

namespace Cooperation

variable {key : PrivateKey} {m : TwoPhaseMapping} {reply : Outcome} {draft : Draft}
  {answer : Except LedgerError String}

/-- Without a draft that can be signed and completed nothing is submitted, and the payment fails. -/
theorem withoutSubmission {fault : WalletError}
    (hnone : ¬ ∃ draft, m.Drafted reply draft ∧ draft.body.isObject = true ∧
      ∀ digest ∈ draft.digests, ∃ sig, key.Signs digest sig)
    (hfault : ∀ cause, fault ≠ .ledger (.transaction cause)) :
    Cooperation key m reply none answer (.error fault) where
  submits := iff_of_false nofun hnone
  completed := nofun
  refused _ := rfl
  withheld _ := ⟨fault, rfl⟩
  taken := nofun
  reported := nofun
  counted _ _ _ heq := hfault _ (Except.error.inj heq)

theorem withSubmission (hdraft : m.Drafted reply draft) {s : DraftSignatures}
    (hsign : key.signDigests draft.digests = .ok s) {body : Json}
    (hbody : TwoPhaseMapping.signedBody? draft.body s = some body)
    (hanswer : Results.FailsWith OfReply answer) :
    Cooperation key m reply (some body) answer
      ((answer.mapError .ledger).map (Wallet.draftReport draft)) where
  submits := by
    have hobject := TwoPhaseMapping.exists_signedBody_iff.1 ⟨body, hbody⟩
    have hsigned := PrivateKey.exists_signDigests_iff.1 ⟨s, hsign⟩
    exact iff_of_true ⟨body, rfl⟩ ⟨draft, hdraft, hobject, hsigned⟩
  completed := by
    rintro _ ⟨⟩
    exact ⟨draft, hdraft, hdraft.completedBy hsign hbody⟩
  refused hunreadable := by
    obtain ⟨digest, hdigest, hlength⟩ := hunreadable draft hdraft
    obtain ⟨_, bytes, hbytes, hwidth, -⟩ :=
      PrivateKey.exists_signDigests_iff.1 ⟨s, hsign⟩ digest hdigest
    exact absurd hwidth (hlength bytes hbytes)
  withheld := nofun
  taken _ txid _ htaken := by
    rw [htaken]
    exact ⟨Wallet.draftReport draft txid, rfl, rfl⟩
  reported report hreport := by
    cases answer with
    | error fault => cases hreport
    | ok txid =>
        cases hreport
        exact ⟨draft, hdraft, rfl, rfl⟩
  counted wanted signatures publicKeys heq := by
    cases answer with
    | error fault =>
        cases heq
        exact hanswer _ rfl _ rfl
    | ok txid => cases heq

end Cooperation

namespace Wallet

/-- How a payment goes on once the backend has replied to the request for a draft. -/
def afterDraft (w : Wallet) :
    Except LedgerError Draft → Dealing (Except WalletError SendReport × Wallet)
  | .error fault =>
    .done (.error (.ledger fault), w.record (SendHistory.start.close (.ledger fault)))
  | .ok draft =>
    match w.signDigests draft.digests with
    | .error fault =>
      .done (.error (.transaction fault), w.record (SendHistory.built.close (.transaction fault)))
    | .ok signatures => .submit (.signedDraft draft signatures) fun reply =>
      .done ((reply.mapError .ledger).map (draftReport draft), w.record (.closedBy reply))

variable {w : Wallet} {recipient : Address} {amount : UInt64}

theorem draftDealing_eq (hamount : amount ≠ 0) :
    w.draftDealing recipient amount = .askDraft w.address recipient amount w.afterDraft := by
  rw [draftDealing, if_neg hamount]
  congr 1

theorem sendCooperative_eq (w : Wallet) (c : LedgerClient) (recipient : Address)
    (hamount : amount ≠ 0) :
    w.sendCooperative (.remote c) recipient amount =
      (c.newDraft w.address recipient amount).bind fun reply =>
        (w.afterDraft reply).carryOut (.remote c) := by
  rw [sendCooperative_eq_carryOut, draftDealing_eq hamount]
  rfl

/-- The rest of the payment after that reply, by what there is to sign and to submit. -/
theorem afterDraft_cooperation (w : Wallet) {c : LedgerClient} {m : TwoPhaseMapping}
    (hm : c.schema.twoPhase = some m) (reply : Outcome) (answer : List Request → Outcome)
    (asked : List Request) :
    let rest := (w.afterDraft (m.draft reply)).carryOut (.remote c)
    ∃ submitted : Option Json,
      rest.requestsFrom answer asked = asked ++ (submitted.map (c.draftSubmission m)).toList ∧
      Cooperation w.key m reply submitted (m.result (answer (rest.requestsFrom answer asked)))
        (rest.runFrom answer asked).1 := by
  intro rest
  have hnothing : asked = asked ++ (none.map (c.draftSubmission m)).toList :=
    (List.append_nil asked).symm
  cases hdraft : m.draft reply with
  | error fault =>
      have hrest : rest = .done (.error (.ledger fault),
          w.record (SendHistory.start.close (.ledger fault))) := by
        simp only [rest, hdraft, afterDraft, Dealing.carryOut]
      rw [hrest]
      refine ⟨none, hnothing, .withoutSubmission ?_ ?_⟩
      · rintro ⟨draft, htold, -⟩
        cases hdraft.symm.trans (TwoPhaseMapping.draft_eq_ok_iff.2 htold)
      · rintro cause ⟨⟩
        exact m.draft_faults reply _ hdraft _ rfl
  | ok draft =>
      have htold := TwoPhaseMapping.draft_eq_ok_iff.1 hdraft
      cases hsign : w.key.signDigests draft.digests with
      | error fault =>
          have hrest : rest = .done (.error (.transaction fault),
              w.record (SendHistory.built.close (.transaction fault))) := by
            simp only [rest, hdraft, afterDraft, signDigests, hsign, Dealing.carryOut]
          rw [hrest]
          refine ⟨none, hnothing, .withoutSubmission ?_ ?_⟩
          · rintro ⟨_, hd, -, hsigned⟩
            cases hd.unique htold
            obtain ⟨s, hs⟩ := PrivateKey.exists_signDigests_iff.2 hsigned
            cases hsign.symm.trans hs
          · rintro cause ⟨⟩
      | ok s =>
          -- There are as many signatures as digests, so only the form of the draft can stop it now.
          have hrest : rest = (c.sendDraft draft s).bind fun reply =>
              .done ((reply.mapError .ledger).map (draftReport draft),
                w.record (.closedBy reply)) := by
            simp only [rest, hdraft, afterDraft, signDigests, hsign, Dealing.carryOut]
            rfl
          rw [hrest, LedgerClient.sendDraft_eq hm hsign]
          cases hbody : TwoPhaseMapping.signedBody? draft.body s with
          | none =>
              refine ⟨none, hnothing, .withoutSubmission ?_ ?_⟩
              · rintro ⟨_, hd, hobject, -⟩
                cases hd.unique htold
                obtain ⟨body, hb⟩ := TwoPhaseMapping.exists_signedBody_iff.2 hobject
                cases hbody.symm.trans hb
              · rintro cause ⟨⟩
          | some body =>
              exact ⟨some body, rfl, .withSubmission htold hsign hbody (m.result_faults _)⟩

/-- A wallet pays by a draft of the backend. If the backend builds no transactions, it is not even
asked. Otherwise it is asked for a draft. Whatever it replies, the draft is submitted exactly if it
is an object and all of its digests can be signed, and then with two lists that have one entry for
each digest, in order, and with all other members as they came. A submission that is answered by a
transaction id is reported with the fee of the draft and no change, and the two lists are never
found too short or too long. -/
theorem sendCooperative_completes (w : Wallet) (c : LedgerClient) (recipient : Address)
    {amount : UInt64} (hamount : 0 < amount) (answer : List Request → Outcome) :
    let payment := w.sendCooperative (.remote c) recipient amount
    (c.schema.twoPhase = none → payment.requests answer = [] ∧
      (payment.run answer).1 = .error (.ledger (.unsupported c.schema.name "create draft"))) ∧
    ∀ m, c.schema.twoPhase = some m →
      let asked := c.draftRequest m w.address recipient amount
      ∃ submitted : Option Json,
        payment.requests answer = asked :: (submitted.map (c.draftSubmission m)).toList ∧
        Cooperation w.key m (answer [asked]) submitted
          (m.result (answer (payment.requests answer))) (payment.run answer).1 := by
  intro payment
  have hpayment : payment = _ :=
    w.sendCooperative_eq c recipient (UInt64.pos_iff_ne_zero.1 hamount)
  constructor
  · intro hnone
    have hrefused : c.newDraft w.address recipient amount =
        .done (.error (.unsupported c.schema.name "create draft")) := by
      rw [LedgerClient.newDraft, hnone]
    rw [hpayment, hrefused]
    exact ⟨rfl, rfl⟩
  · intro m hm asked
    rw [hpayment, LedgerClient.newDraft_eq hm]
    exact w.afterDraft_cooperation hm (answer [asked]) answer [asked]

open UnsignedTransaction (sampleKey samplePayment_signature)

/-- The digest of the sample payment. -/
def sampleDigest : String :=
  "5cf0d2ba34832e65d312ee80761f9028186fe017fcfcea02c9829c408d85f2dc"

theorem exists_signs_sampleDigest : ∃ sig, sampleKey.Signs sampleDigest sig := by
  have hdigest : Hex.decode sampleDigest = .ok UnsignedTransaction.sampleDigest :=
    Results.eq_ok_of_toOption (by decide +kernel)
  obtain ⟨sig, hsign⟩ := samplePayment_signature
  exact ⟨sig, _, hdigest, Endian.length_toBig 32 _, hsign⟩

/-- A wallet that knows of nothing, with the key of the sample. -/
def emptyWallet : Wallet := .ofStore sampleKey {} .empty

/-- A backend that builds transactions. -/
def building : LedgerClient := ⟨.blockcypher .mainnet, none⟩

/-- A reply with a draft of one digest, which has a member in the place of the public keys. -/
def draftOf (digest : String) (_ : List Request) : Outcome :=
  .reply 201
    ("\x7b\"tosign\":[\"" ++ digest ++ "\"],\"tx\":\x7b\"fees\":7\x7d,\"pubkeys\":0\x7d")

theorem sendCooperative_completes_sample : ∃ m draft body,
    building.schema.twoPhase = some m ∧ m.Drafted (draftOf sampleDigest []) draft ∧
    draft.digests = [sampleDigest] ∧ draft.fee = 7 ∧ draft.CompletedBy sampleKey body ∧
    (emptyWallet.sendCooperative (.remote building) someAddress 5).requests
        (draftOf sampleDigest) =
      [building.draftRequest m emptyWallet.address someAddress 5,
        building.draftSubmission m body] := by
  obtain ⟨m, hm⟩ : ∃ m, building.schema.twoPhase = some m := ⟨_, rfl⟩
  obtain ⟨-, h⟩ := sendCooperative_completes emptyWallet building someAddress
    (by decide : (0 : UInt64) < 5) (draftOf sampleDigest)
  obtain ⟨submitted, hrequests, hcooperation⟩ := h m hm
  have hread : (m.draft (draftOf sampleDigest [])).toOption.map
      (fun draft => (draft.digests, draft.fee, draft.body.isObject)) =
        some ([sampleDigest], 7, true) := by
    cases hm
    decide +kernel
  obtain ⟨draft, hdraft, hparts⟩ := Option.map_eq_some_iff.1 hread
  simp only [Prod.mk.injEq] at hparts
  obtain ⟨hdigests, hfee, hobject⟩ := hparts
  have htold := TwoPhaseMapping.draft_eq_ok_iff.1 (Results.eq_ok_of_toOption hdraft)
  have hsigned : ∀ digest ∈ draft.digests, ∃ sig, emptyWallet.key.Signs digest sig := by
    rw [hdigests]
    intro digest hdigest
    cases List.mem_singleton.1 hdigest
    exact exists_signs_sampleDigest
  obtain ⟨body, rfl⟩ := hcooperation.submits.2 ⟨draft, htold, hobject, hsigned⟩
  obtain ⟨draft', htold', hcompleted⟩ := hcooperation.completed body rfl
  cases htold'.unique htold
  exact ⟨m, draft, body, hm, htold, hdigests, hfee, hcompleted, hrequests⟩

end Wallet

end CashWallet
