import CashWallet.Ledger.Submission
import CashWallet.Proofs.Bytes.HexText
import CashWallet.Proofs.Json.Members
import CashWallet.Proofs.Key.Forms
import CashWallet.Proofs.Results
import CashWallet.Proofs.Signature.Der
import CashWallet.Proofs.Signature.Ecdsa

/-!
# Drafts and what completes them

Which replies hand out a draft, and what a draft becomes by its signatures. A draft that is signed
at all is signed as a whole: both lists have one entry for each digest, in the order of the digests,
and whoever reads the entries for a digest finds a valid signature. All other members of the draft
go back as they came.
-/

namespace CashWallet

open Results

/-! ## What a reply tells -/

theorem Json.read?_of_isBlank {text : String} (h : Outcome.isBlank text = true) :
    read? (Text.trim text) = none := by
  rw [String.isEmpty_iff.1 h]
  decide +kernel

/-- An id that is not found in a text is a mismatch. -/
theorem txIdText_failsWith {P : LedgerError → Prop} (hmismatch : ∀ cause, P (.mismatch cause))
    (text : String) : FailsWith P (txIdText text) := by
  rw [txIdText]
  split
  · exact failsWith_ok _
  · exact failsWith_error (hmismatch _)

namespace SubmissionReply

variable {errorField : String} {outcome : Outcome} {j : Json}

theorem ofOutcome_document {status : Nat} {text : String}
    (hsuccess : Outcome.isSuccess status = true) (hread : Json.read? (Text.trim text) = some j) :
    ofOutcome errorField (.reply status text) =
      if tellsError j errorField then .error (.rejected text) else .ok (.value j) := by
  have hfilled : ¬ Outcome.isBlank text = true := by
    intro hblank
    cases (Json.read?_of_isBlank hblank).symm.trans hread
  rw [ofOutcome, hsuccess, if_neg (by decide), if_neg hfilled, hread]

/-- A reply is taken as a value if it is a success with a document that tells of no error. -/
theorem ofOutcome_eq_value_iff : ofOutcome errorField outcome = .ok (.value j) ↔
    (∃ status text, outcome = .reply status text ∧ Outcome.isSuccess status = true ∧
      Json.read? (Text.trim text) = some j) ∧ tellsError j errorField = false := by
  constructor
  · intro h
    cases outcome with
    | unreachable => cases h
    | reply status text =>
        have hsuccess : Outcome.isSuccess status = true := by
          by_contra hfailed
          rw [ofOutcome, eq_false_of_ne_true hfailed] at h
          cases h
        cases hread : Json.read? (Text.trim text) with
        | none =>
            rw [ofOutcome, hsuccess, if_neg (by decide), hread] at h
            split at h <;> cases h
        | some found =>
            rw [ofOutcome_document hsuccess hread] at h
            split at h
            · cases h
            · next hquiet =>
                cases h
                exact ⟨⟨status, text, rfl, hsuccess, hread⟩, eq_false_of_ne_true hquiet⟩
  · rintro ⟨⟨status, text, rfl, hsuccess, hread⟩, hquiet⟩
    rw [ofOutcome_document hsuccess hread, hquiet, if_neg (by decide)]

end SubmissionReply

namespace TwoPhaseMapping

variable {m : TwoPhaseMapping} {outcome : Outcome} {draft : Draft}

/-- A reply that hands out a draft: it is a success, it is a document without an error in it, and
the digests are a list of texts. A fee that is not told is zero. -/
structure Drafted (m : TwoPhaseMapping) (outcome : Outcome) (draft : Draft) : Prop where
  accepted : ∃ status text, outcome = .reply status text ∧ Outcome.isSuccess status = true ∧
    Json.read? (Text.trim text) = some draft.body
  faultless : SubmissionReply.tellsError draft.body m.errorField = false
  digests : draft.body.pointer? m.digests = some (texts draft.digests)
  fee : draft.fee = ((draft.body.pointer? m.fee).bind Json.uint64?).getD 0

theorem digestText_eq_ok_iff {j : Json} {text : String} :
    digestText j = .ok text ↔ j = .string text := by
  cases j <;> simp [digestText]

theorem mapM_digestText_eq_ok_iff {items : List Json} {digests : List String} :
    items.mapM digestText = .ok digests ↔ items = digests.map Json.string := by
  simp only [mapM_eq_ok_iff, digestText_eq_ok_iff]
  rw [← List.forall₂_map_right_iff, List.forall₂_eq_eq_eq]

theorem eq_array_of_bind {found : Option Json} {items : List Json}
    (h : found.bind Json.array? = some items) : found = some (.array items) := by
  obtain ⟨j, rfl, hj⟩ := Option.bind_eq_some_iff.1 h
  cases j <;> cases hj
  rfl

/-- A draft is read exactly from a reply that hands it out. -/
theorem draft_eq_ok_iff : m.draft outcome = .ok draft ↔ m.Drafted outcome draft := by
  constructor
  · intro h
    obtain ⟨reply, hreply, h⟩ := bind_eq_ok_iff.1 h
    cases reply with
    | text s => cases h
    | value body =>
        obtain ⟨haccepted, hquiet⟩ := SubmissionReply.ofOutcome_eq_value_iff.1 hreply
        dsimp only at h
        split at h
        · cases h
        · next items hitems =>
            obtain ⟨digests, hdigests, heq⟩ := bind_eq_ok_iff.1 h
            cases heq
            rw [mapM_digestText_eq_ok_iff] at hdigests
            subst hdigests
            exact ⟨haccepted, hquiet, eq_array_of_bind hitems, rfl⟩
  · rintro ⟨haccepted, hquiet, hdigests, hfee⟩
    have hreply := SubmissionReply.ofOutcome_eq_value_iff.2 ⟨haccepted, hquiet⟩
    have hitems : (draft.body.pointer? m.digests).bind Json.array? =
        some (draft.digests.map Json.string) := by
      rw [hdigests]
      rfl
    refine bind_eq_ok_iff.2 ⟨_, hreply, ?_⟩
    simp only [hitems]
    refine bind_eq_ok_iff.2 ⟨draft.digests, mapM_digestText_eq_ok_iff.2 rfl, ?_⟩
    rw [← hfee]
    rfl

theorem Drafted.unique {draft' : Draft} (h : m.Drafted outcome draft)
    (h' : m.Drafted outcome draft') : draft = draft' :=
  Except.ok.inj ((draft_eq_ok_iff.2 h).symm.trans (draft_eq_ok_iff.2 h'))

/-! ## Faults of replies -/

/-- The fault is not about a transaction. -/
def OfReply (fault : LedgerError) : Prop :=
  ∀ cause, fault ≠ .transaction cause

theorem ofOutcome_faults (errorField : String) (outcome : Outcome) :
    FailsWith OfReply (SubmissionReply.ofOutcome errorField outcome) := by
  intro fault h
  cases outcome with
  | unreachable =>
      cases h
      exact nofun
  | reply status text =>
      rw [SubmissionReply.ofOutcome] at h
      repeat' split at h
      all_goals cases h
      all_goals exact nofun

section

-- Behind the reply itself, only a mismatch can still be found.
variable {P : LedgerError → Prop} (hmismatch : ∀ cause, P (.mismatch cause))
include hmismatch

theorem digestText_failsWith (item : Json) : FailsWith P (digestText item) := by
  cases item with
  | string text => exact failsWith_ok text
  | _ => exact failsWith_error (hmismatch _)

theorem draft_failsWith (h : FailsWith P (SubmissionReply.ofOutcome m.errorField outcome)) :
    FailsWith P (m.draft outcome) := by
  apply h.bind
  rintro (body | s) -
  · dsimp only
    split
    · exact failsWith_error (hmismatch _)
    · refine (failsWith_mapM fun item _ => digestText_failsWith hmismatch item).bind ?_
      intro digests _
      exact failsWith_ok _
  · exact failsWith_error (hmismatch _)

theorem result_failsWith (h : FailsWith P (SubmissionReply.ofOutcome m.errorField outcome)) :
    FailsWith P (m.result outcome) := by
  apply h.bind
  rintro (j | s) -
  · dsimp only
    split
    · exact txIdText_failsWith hmismatch _
    · exact failsWith_error (hmismatch _)
  · exact failsWith_error (hmismatch _)

end

theorem draft_faults (m : TwoPhaseMapping) (outcome : Outcome) :
    FailsWith OfReply (m.draft outcome) :=
  draft_failsWith (fun _ => nofun) (ofOutcome_faults m.errorField outcome)

theorem result_faults (m : TwoPhaseMapping) (outcome : Outcome) :
    FailsWith OfReply (m.result outcome) :=
  result_failsWith (fun _ => nofun) (ofOutcome_faults m.errorField outcome)

end TwoPhaseMapping

/-! ## Signing the digests of a draft -/

namespace PrivateKey

variable {key : PrivateKey} {digest : String} {digests : List String} {s : DraftSignatures}
  {sig : Signature}

/-- The signature that a key makes over a digest of 32 bytes in hexadecimal. -/
def Signs (key : PrivateKey) (digest : String) (sig : Signature) : Prop :=
  ∃ bytes, Hex.decode digest = .ok bytes ∧ bytes.length = 32 ∧ key.sign bytes = .ok sig

/-- What is read from the entries for a digest: 32 bytes, a signature in its strict form and with
the smaller of the two values, and the public key of the signer, for which it is valid. -/
def Vouches (key : PrivateKey) (digest signature publicKey : String) : Prop :=
  ∃ (bytes der : Bytes) (sig : Signature),
    Hex.decode digest = .ok bytes ∧ bytes.length = 32 ∧
    signature = Hex.encode der ∧ Signature.ofDer der = .ok sig ∧ sig.isLowS = true ∧
    PublicKey.ofHex publicKey = .ok key.publicKey ∧ key.publicKey.verify bytes sig = true

theorem ofHex_publicKey (key : PrivateKey) :
    PublicKey.ofHex key.publicKey.toHex = .ok key.publicKey := by
  rw [PublicKey.ofHex, PublicKey.toHex, Hex.decode_encode]
  exact PublicKey.ofBytes_toBytes key.publicKey_isOnCurve

theorem Signs.vouches (h : key.Signs digest sig) :
    key.Vouches digest sig.toDerHex key.publicKey.toHex := by
  obtain ⟨bytes, hbytes, hlength, hsign⟩ := h
  have hvalid : key.publicKey.verify bytes sig = true := verify_sign hsign
  have hlow : sig.isLowS = true := by
    rw [PublicKey.verify, Bool.and_eq_true] at hvalid
    exact hvalid.1
  exact ⟨bytes, sig.toDer, sig, hbytes, hlength, rfl, sig.ofDer_toDer, hlow, key.ofHex_publicKey,
    hvalid⟩

theorem digestOfHex_eq_ok_iff {place : Nat} {bytes : Bytes} :
    digestOfHex place digest = .ok bytes ↔ Hex.decode digest = .ok bytes ∧ bytes.length = 32 := by
  rw [digestOfHex]
  cases Hex.decode digest with
  | error fault => simp
  | ok found =>
      dsimp only
      constructor
      · intro h
        split at h
        · next hlength =>
            cases h
            exact ⟨rfl, hlength⟩
        · cases h
      · rintro ⟨⟨⟩, hlength⟩
        rw [if_pos hlength]

/-- What is written for one digest is the text of its signature. -/
theorem signDigest_eq_ok_iff {place : Nat} {text : String} :
    (do let bytes ← digestOfHex place digest
        let sig ← (key.sign bytes).mapError TransactionError.codec
        return sig.toDerHex) = Except.ok text ↔
      ∃ sig, key.Signs digest sig ∧ text = sig.toDerHex := by
  simp only [bind_eq_ok_iff, mapError_eq_ok_iff, digestOfHex_eq_ok_iff]
  constructor
  · rintro ⟨bytes, ⟨hbytes, hlength⟩, sig, hsign, heq⟩
    cases heq
    exact ⟨sig, ⟨bytes, hbytes, hlength, hsign⟩, rfl⟩
  · rintro ⟨sig, ⟨bytes, hbytes, hlength, hsign⟩, rfl⟩
    exact ⟨bytes, ⟨hbytes, hlength⟩, sig, hsign, rfl⟩

theorem signDigests_spec (h : key.signDigests digests = .ok s) :
    s.publicKeys = digests.map (fun _ => key.publicKey.toHex) ∧
      s.signatures.length = digests.length ∧
      ∀ (i : Nat) digest, digests[i]? = some digest →
        ∃ sig, key.Signs digest sig ∧ s.signatures[i]? = some sig.toDerHex := by
  obtain ⟨signatures, hsignatures, heq⟩ := bind_eq_ok_iff.1 h
  cases heq
  obtain ⟨hlength, hentries⟩ := mapM_zipIdx_eq_ok_iff.1 hsignatures
  refine ⟨rfl, hlength, ?_⟩
  intro i digest hdigest
  obtain ⟨text, htext, hsigned⟩ := hentries i digest hdigest
  obtain ⟨sig, hsig, rfl⟩ := signDigest_eq_ok_iff.1 hsigned
  exact ⟨sig, hsig, htext⟩

/-- All digests are signed, or none. -/
theorem exists_signDigests_iff : (∃ s, key.signDigests digests = .ok s) ↔
    ∀ digest ∈ digests, ∃ sig, key.Signs digest sig := by
  constructor
  · rintro ⟨s, h⟩ digest hdigest
    obtain ⟨-, -, hentries⟩ := signDigests_spec h
    obtain ⟨i, hi⟩ := List.mem_iff_getElem?.1 hdigest
    obtain ⟨sig, hsig, -⟩ := hentries i digest hi
    exact ⟨sig, hsig⟩
  · intro h
    have hentries : ∀ entry ∈ digests.zipIdx, ∃ text,
        (do let bytes ← digestOfHex entry.2 entry.1
            let sig ← (key.sign bytes).mapError TransactionError.codec
            return sig.toDerHex) = Except.ok text := by
      rintro ⟨digest, place⟩ hentry
      obtain ⟨sig, hsig⟩ := h digest (List.fst_mem_of_mem_zipIdx hentry)
      exact ⟨_, signDigest_eq_ok_iff.2 ⟨sig, hsig, rfl⟩⟩
    obtain ⟨signatures, hsignatures⟩ := exists_mapM_iff.2 hentries
    exact ⟨_, bind_eq_ok_iff.2 ⟨signatures, hsignatures, rfl⟩⟩

/-- The signatures of a draft are as many as it takes. -/
theorem check_of_signDigests {draft : Draft} (h : key.signDigests draft.digests = .ok s) :
    draft.check s = .ok () := by
  obtain ⟨hkeys, hlength, -⟩ := signDigests_spec h
  rw [Draft.check, if_pos ⟨hlength, by rw [hkeys, List.length_map]⟩]

end PrivateKey

/-! ## The draft with its signatures -/

open TwoPhaseMapping (texts signedBody?)

/-- A draft that is completed by a key: an object with two lists that have one entry for each digest
in order, which vouch for the digest, and with all other members as the draft has them. -/
structure Draft.CompletedBy (draft : Draft) (key : PrivateKey) (body : Json) : Prop where
  object : ∃ members, body = .object members ∧ Json.Ordered members
  others : ∀ name, name ≠ "signatures" → name ≠ "pubkeys" →
    body.field? name = draft.body.field? name
  signed : ∃ signatures publicKeys : List String,
    body.field? "signatures" = some (texts signatures) ∧
    body.field? "pubkeys" = some (texts publicKeys) ∧
    signatures.length = draft.digests.length ∧ publicKeys.length = draft.digests.length ∧
    ∀ (i : Nat) digest, draft.digests[i]? = some digest →
      ∃ signature publicKey, signatures[i]? = some signature ∧ publicKeys[i]? = some publicKey ∧
        key.Vouches digest signature publicKey

theorem TwoPhaseMapping.exists_signedBody_iff {j : Json} {s : DraftSignatures} :
    (∃ body, signedBody? j s = some body) ↔ j.isObject = true := by
  cases j <;> simp [signedBody?, Json.isObject]

theorem TwoPhaseMapping.Drafted.ordered {m : TwoPhaseMapping} {outcome : Outcome} {draft : Draft}
    (h : m.Drafted outcome draft) {members : List (String × Json)}
    (hbody : draft.body = .object members) : Json.Ordered members := by
  obtain ⟨-, text, -, -, hread⟩ := h.accepted
  rw [hbody] at hread
  exact Json.ordered_of_read hread

theorem TwoPhaseMapping.Drafted.completedBy {m : TwoPhaseMapping} {outcome : Outcome}
    {draft : Draft} (h : m.Drafted outcome draft) {key : PrivateKey} {s : DraftSignatures}
    (hsign : key.signDigests draft.digests = .ok s) {body : Json}
    (hbody : signedBody? draft.body s = some body) : draft.CompletedBy key body := by
  obtain ⟨hkeys, hlength, hentries⟩ := PrivateKey.signDigests_spec hsign
  obtain ⟨digests, fee, draftBody⟩ := draft
  cases draftBody with
  | object members =>
      cases hbody
      have hmembers : Json.Ordered members := h.ordered rfl
      have hsigned := hmembers.insertMember "signatures" (texts s.signatures)
      refine ⟨⟨_, rfl, hsigned.insertMember _ _⟩, ?_, s.signatures, s.publicKeys, ?_, ?_, hlength,
        by rw [hkeys, List.length_map], ?_⟩
      · intro name hsignatures hpubkeys
        calc Json.member? name (Json.insertMember "pubkeys" (texts s.publicKeys) _)
            = Json.member? name (Json.insertMember "signatures" (texts s.signatures) members) :=
              Json.member?_insertMember_of_ne (Ne.symm hpubkeys) _ _
          _ = Json.member? name members := Json.member?_insertMember_of_ne (Ne.symm hsignatures) _ _
      · calc Json.member? "signatures" (Json.insertMember "pubkeys" (texts s.publicKeys) _)
            = Json.member? "signatures"
                (Json.insertMember "signatures" (texts s.signatures) members) :=
              Json.member?_insertMember_of_ne (by decide) _ _
          _ = some (texts s.signatures) := hmembers.member?_insertMember _ _
      · exact hsigned.member?_insertMember _ _
      · intro i digest hdigest
        obtain ⟨sig, hsig, htext⟩ := hentries i digest hdigest
        refine ⟨_, key.publicKey.toHex, htext, ?_, hsig.vouches⟩
        rw [hkeys, List.getElem?_map, hdigest]
        rfl
  | _ => cases hbody

end CashWallet
