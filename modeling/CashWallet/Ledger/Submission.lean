import CashWallet.Json.Record
import CashWallet.Ledger.Fetch
import CashWallet.Transaction.Sign

/-!
# Submitting transactions

A signed transaction is pushed as it is. A backend that builds transactions itself is asked for a
draft with digests to sign, and gets the draft back with the signatures. A transaction id in a
reply may stand in quotes and between blank space, and is given back in lower case.
-/

namespace CashWallet

/-- A transaction that the backend has built: the digests to sign, the fee, and the whole of what
the backend said. -/
structure Draft where
  digests : List String
  fee : UInt64
  body : Json

/-- The text of a transaction id in a reply. -/
def txIdText (text : String) : Except LedgerError String :=
  let bare := Text.stripChars (· == '"') (Text.trimChars text.toList)
  match TxId.ofHex (String.ofList bare) with
  | .ok _ => .ok (String.ofList (bare.map Char.toLower))
  | .error _ => .error (.mismatch (.replyTxId (String.ofList bare)))

/-- The text that a pointer leads to. -/
def Json.textAt? (j : Json) (pointer : String) : Option String :=
  (j.pointer? pointer).bind string?

namespace BroadcastMapping

def body (m : BroadcastMapping) (raw : String) : Json :=
  .object [(m.bodyField, .string raw)]

/-- The transaction id in a reply: at the pointer of the schema, or the reply itself. -/
def txId? (m : BroadcastMapping) : SubmissionReply → Option String
  | .text s => some s
  | .value j =>
    match m.txid with
    | some pointer => j.textAt? pointer
    | none => j.string?

def result (m : BroadcastMapping) (outcome : Outcome) : Except LedgerError String := do
  match m.txId? (← SubmissionReply.ofOutcome m.errorField outcome) with
  | some text => txIdText text
  | none => throw (.mismatch .noPushedTxId)

end BroadcastMapping

namespace TwoPhaseMapping

/-- A digest in a draft. -/
def digestText (j : Json) : Except LedgerError String :=
  match j with
  | .string s => .ok s
  | found => .error (.mismatch (.digestForm found))

/-- A draft asks for an amount to be paid from one address to another. -/
def draftBody (source target : Address) (amount : UInt64) : Json :=
  .object [
    ("inputs", .array [.object [("addresses", .array [.string source.text])]]),
    ("outputs", .array [.object
      [("addresses", .array [.string target.text]), ("value", .ofUInt64 amount)]])]

def draft (m : TwoPhaseMapping) (outcome : Outcome) : Except LedgerError Draft := do
  match ← SubmissionReply.ofOutcome m.errorField outcome with
  | .text s => throw (.mismatch (.draftForm s))
  | .value body =>
    match (body.pointer? m.digests).bind Json.array? with
    | none => throw (.mismatch (.draftWithout m.digests))
    | some items =>
      let digests ← items.mapM digestText
      let fee := ((body.pointer? m.fee).bind Json.uint64?).getD 0
      return ⟨digests, fee, body⟩

def texts (ss : List String) : Json := .array (ss.map Json.string)

/-- A draft with its signatures, if it is an object. -/
def signedBody? (draft : Json) (s : DraftSignatures) : Option Json :=
  match draft with
  | .object members =>
    some (.object (Json.insertMember "pubkeys" (texts s.publicKeys)
      (Json.insertMember "signatures" (texts s.signatures) members)))
  | _ => none

def result (m : TwoPhaseMapping) (outcome : Outcome) : Except LedgerError String := do
  match ← SubmissionReply.ofOutcome m.errorField outcome with
  | .text _ => throw (.mismatch (.noTxIdAt m.txid))
  | .value j =>
    match j.textAt? m.txid with
    | some text => txIdText text
    | none => throw (.mismatch (.noTxIdAt m.txid))

end TwoPhaseMapping

/-- A draft takes one signature and one public key for each digest. -/
def Draft.check (d : Draft) (s : DraftSignatures) : Except LedgerError Unit :=
  if s.signatures.length = d.digests.length ∧ s.publicKeys.length = d.digests.length then .ok ()
  else
    .error (.transaction (.draftSignatures d.digests.length s.signatures.length
      s.publicKeys.length))

namespace LedgerClient

/-- Push a signed transaction. -/
def push (c : LedgerClient) (raw : String) : Exchange (Except LedgerError String) :=
  let m := c.schema.broadcast
  .ask (.post (c.schema.url m.path "") c.token (m.body raw)) fun outcome => .done (m.result outcome)

/-- Ask for a draft. -/
def newDraft (c : LedgerClient) (source target : Address) (amount : UInt64) :
    Exchange (Except LedgerError Draft) :=
  match c.schema.twoPhase with
  | none => .done (.error (.unsupported c.schema.name "create draft"))
  | some m =>
    .ask (.post (c.schema.url m.newPath "") c.token (TwoPhaseMapping.draftBody source target amount))
      fun outcome => .done (m.draft outcome)

/-- Give a draft back with its signatures. -/
def sendDraft (c : LedgerClient) (draft : Draft) (s : DraftSignatures) :
    Exchange (Except LedgerError String) :=
  match c.schema.twoPhase with
  | none => .done (.error (.unsupported c.schema.name "submit draft"))
  | some m =>
    match draft.check s with
    | .error fault => .done (.error fault)
    | .ok () =>
      match TwoPhaseMapping.signedBody? draft.body s with
      | none => .done (.error (.mismatch .draftBody))
      | some body =>
        .ask (.post (c.schema.url m.sendPath "") c.token body) fun outcome =>
          .done (m.result outcome)

end LedgerClient

end CashWallet
