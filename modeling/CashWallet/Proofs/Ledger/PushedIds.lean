import CashWallet.Proofs.Json.NumberText
import CashWallet.Proofs.Ledger.Drafts
import CashWallet.Proofs.Ledger.SubmittedIds

/-!
# Replies that are an id and nothing else

A backend whose schema has no pointer to the id replies to a push with the id alone. As a text of a
document the id is found in either case and with blank space around it. Without quote marks it is
found as well, unless its digits happen to write a number: then the reply is a document, the number
is no text, and the push is reported as failed although it was accepted.
-/

namespace CashWallet

open Results

variable {id : TxId} {cs : List Char}

theorem Hex.digits_unmarked : ∀ c ∈ Hex.digits, (c == '"') = false :=
  List.forall_iff_forall_mem.1 (by decide)

/-- A text that displays an id, with blank space around it, is given back as its display form. -/
theorem txIdText_displays {text : String} (h : id.Displays (Text.trimChars text.toList)) :
    txIdText text = .ok id.toHex := by
  have hbare : unquoted text = Text.trimChars text.toList :=
    Text.stripChars_eq_self fun c hc => Hex.digits_unmarked c (h.digits c hc)
  have htrim : Text.trimChars (unquoted text) = unquoted text := by
    rw [hbare]
    exact Text.stripChars_stripChars Text.isBlank text.toList
  rw [txIdText_eq_ok_iff, htrim, hbare]
  exact ⟨⟨id, h⟩, by rw [h, String.ofList_toList]⟩

namespace SubmissionReply

variable {errorField : String} {status : Nat} {body : String}

theorem ofOutcome_text (hsuccess : Outcome.isSuccess status = true) (hfilled : Text.trim body ≠ "")
    (hread : Json.read? (Text.trim body) = none) :
    ofOutcome errorField (.reply status body) = .ok (.text (Text.trim body)) := by
  have hblank : ¬ Outcome.isBlank body = true := fun h => hfilled (String.isEmpty_iff.1 h)
  rw [ofOutcome, hsuccess, if_neg (by decide), if_neg hblank, hread]

/-- What is no object has no error in it. -/
theorem ofOutcome_value {j : Json} (hsuccess : Outcome.isSuccess status = true)
    (hread : Json.read? (Text.trim body) = some j) (hj : j.isObject = false) :
    ofOutcome errorField (.reply status body) = .ok (.value j) := by
  have hquiet : tellsError j errorField = false := by
    cases j with
    | object members => cases hj
    | _ => rfl
  rw [ofOutcome_document hsuccess hread, hquiet, if_neg (by decide)]

end SubmissionReply

namespace BroadcastMapping

variable {m : BroadcastMapping} {outcome : Outcome} {reply : SubmissionReply}

theorem result_shown (hreply : SubmissionReply.ofOutcome m.errorField outcome = .ok reply)
    {text : String} (htext : m.txId? reply = some text) : m.result outcome = txIdText text := by
  rw [result, hreply, ok_bind, htext]

theorem result_unshown (hreply : SubmissionReply.ofOutcome m.errorField outcome = .ok reply)
    (htext : m.txId? reply = none) : m.result outcome = .error (.mismatch .noPushedTxId) := by
  rw [result, hreply, ok_bind, htext]
  rfl

end BroadcastMapping

/-- Nothing but blank space. -/
def IsSpaces (cs : List Char) : Prop :=
  ∀ c ∈ cs, Text.isBlank c = true

namespace TxId.Displays

variable {before after : List Char}

theorem trim_padded (hbefore : IsSpaces before) (h : id.Displays cs) (hafter : IsSpaces after) :
    Text.trim (String.ofList (before ++ cs ++ after)) = String.ofList cs := by
  rw [Text.trim, String.toList_ofList, Text.trimChars,
    Text.stripChars_padded hbefore hafter h.isBlank h.ne_nil]

theorem trim_quoted (hbefore : IsSpaces before) (h : id.Displays cs) (hafter : IsSpaces after) :
    Text.trim (String.ofList (before ++ '"' :: (cs ++ ['"']) ++ after)) =
      String.ofList ('"' :: (cs ++ ['"'])) := by
  have hmark : Text.isBlank '"' = false := by decide
  have hmarked : ∀ c ∈ '"' :: (cs ++ ['"']), Text.isBlank c = false := by
    rw [List.forall_mem_cons, List.forall_mem_append, List.forall_mem_singleton]
    exact ⟨hmark, h.isBlank, hmark⟩
  rw [Text.trim, String.toList_ofList, Text.trimChars,
    Text.stripChars_padded hbefore hafter hmarked (List.cons_ne_nil _ _)]

theorem trimChars (h : id.Displays cs) :
    id.Displays (Text.trimChars (String.ofList cs).toList) := by
  rw [String.toList_ofList, Text.trimChars, Text.stripChars_eq_self h.isBlank]
  exact h

end TxId.Displays

namespace LedgerClient

variable {c : LedgerClient} {status : Nat} {body : String}

/-- A document that is a text shows it. -/
theorem push_text {shown : String} (hschema : c.schema.broadcast.txid = none)
    (hsuccess : Outcome.isSuccess status = true)
    (hread : Json.read? (Text.trim body) = some (.string shown)) (raw : String) :
    (c.push raw).run (fun _ => .reply status body) = txIdText shown := by
  have hshown : c.schema.broadcast.txId? (.value (.string shown)) = some shown := by
    rw [BroadcastMapping.txId?, hschema]
    rfl
  exact BroadcastMapping.result_shown (SubmissionReply.ofOutcome_value hsuccess hread rfl) hshown

/-- A document that is a number shows nothing. -/
theorem push_number {n : Json.Number} (hschema : c.schema.broadcast.txid = none)
    (hsuccess : Outcome.isSuccess status = true)
    (hread : Json.read? (Text.trim body) = some (.number n)) (raw : String) :
    (c.push raw).run (fun _ => .reply status body) = .error (.mismatch .noPushedTxId) := by
  have hshown : c.schema.broadcast.txId? (.value (.number n)) = none := by
    rw [BroadcastMapping.txId?, hschema]
    rfl
  exact BroadcastMapping.result_unshown (SubmissionReply.ofOutcome_value hsuccess hread rfl) hshown

/-- What is no document is shown as it is. -/
theorem push_plain (hsuccess : Outcome.isSuccess status = true)
    (hfilled : Text.trim body ≠ "") (hread : Json.read? (Text.trim body) = none) (raw : String) :
    (c.push raw).run (fun _ => .reply status body) = txIdText (Text.trim body) :=
  BroadcastMapping.result_shown (SubmissionReply.ofOutcome_text hsuccess hfilled hread) rfl

/-- A backend replies to a push with an id, the schema having no pointer to it. As a text of a
document it is given back in its display form, however the text is written and with any blank space
around it. So is the bare id if its digits do not write a number; if they do, the push fails. -/
theorem push_displayed (hschema : c.schema.broadcast.txid = none)
    (hsuccess : Outcome.isSuccess status = true) (id : TxId) (raw : String) :
    (∀ body shown, Json.read? (Text.trim body) = some (.string shown) →
      id.Displays (Text.trimChars shown.toList) →
        (c.push raw).run (fun _ => .reply status body) = .ok id.toHex) ∧
    (∀ before cs after, IsSpaces before → id.Displays cs → IsSpaces after →
      let quoted := String.ofList (before ++ '"' :: (cs ++ ['"']) ++ after)
      let bare := String.ofList (before ++ cs ++ after)
      (c.push raw).run (fun _ => .reply status quoted) = .ok id.toHex ∧
      (Json.WritesNumber cs → (c.push raw).run (fun _ => .reply status bare) =
        .error (.mismatch .noPushedTxId)) ∧
      (¬ Json.WritesNumber cs → (c.push raw).run (fun _ => .reply status bare) =
        .ok id.toHex)) := by
  constructor
  · intro body shown hread hshown
    rw [push_text hschema hsuccess hread, txIdText_displays hshown]
  · intro before cs after hbefore hcs hafter quoted bare
    have hquoted : Json.read? (Text.trim quoted) = some (.string (String.ofList cs)) := by
      rw [hcs.trim_quoted hbefore hafter]
      exact Json.read?_quoted_hex hcs.digits
    have hbare : Text.trim bare = String.ofList cs := hcs.trim_padded hbefore hafter
    refine ⟨?_, fun hnumber => ?_, fun hnumber => ?_⟩
    · rw [push_text hschema hsuccess hquoted, txIdText_displays hcs.trimChars]
    · obtain ⟨n, hread⟩ := Json.exists_read?_hex hcs.digits hnumber
      exact push_number hschema hsuccess (hbare ▸ hread) raw
    · have hread := Json.read?_hex_eq_none hcs.digits hnumber
      have hfilled : Text.trim bare ≠ "" := by
        rw [hbare]
        exact fun hempty => hcs.ne_nil (String.ofList_eq_empty_iff.1 hempty)
      rw [push_plain hsuccess hfilled (hbare ▸ hread), hbare, txIdText_displays hcs.trimChars]

/-- The id with the bytes from 0 to 31. -/
def countedId : TxId :=
  ⟨(List.range 32).map UInt8.ofNat, by decide⟩

def countedDigits : List Char :=
  "1F1E1D1C1B1A191817161514131211100f0e0d0c0b0a09080706050403020100".toList

theorem displays_counted : countedId.Displays countedDigits := by
  rw [TxId.Displays, TxId.toHex, Hex.encode, String.toList_ofList]
  decide

/-- The id whose digits are all the digit one. -/
def decimalId : TxId :=
  ⟨List.replicate 32 0x11, by decide⟩

def decimalDigits : List Char :=
  List.replicate 64 '1'

theorem displays_decimal : decimalId.Displays decimalDigits := by
  rw [TxId.Displays, TxId.toHex, Hex.encode, String.toList_ofList]
  decide

theorem writesNumber_decimal : Json.WritesNumber decimalDigits := by
  have hwhole : Json.IsWhole decimalDigits := by
    refine ⟨by decide, ?_, by decide⟩
    intro c hc
    rw [List.eq_of_mem_replicate hc]
    rfl
  have hnumber : (Json.Literal.number? ⟨false, decimalDigits, none, none⟩).isSome = true := by
    decide +kernel
  obtain ⟨n, hn⟩ := Option.isSome_iff_exists.1 hnumber
  exact ⟨_, n, .integer hwhole, hn⟩

/-- The id in quote marks, its first digit escaped and a space behind its last one. -/
def escapedReply : String :=
  String.ofList ("\"\\u0031".toList ++ countedDigits.drop 1 ++ " \"".toList)

theorem read?_escapedReply : Json.read? (Text.trim escapedReply) =
    some (.string (String.ofList (countedDigits ++ [' ']))) := by
  have htext : (Json.read? (Text.trim escapedReply)).bind Json.string? =
      some (String.ofList (countedDigits ++ [' '])) := by
    decide +kernel
  obtain ⟨j, hread, hj⟩ := Option.bind_eq_some_iff.1 htext
  cases j <;> cases hj
  exact hread

theorem push_displayed_counted :
    let push := fun body => (plainClient.push "00").run fun _ => .reply 201 body
    (plainClient.schema.broadcast.txid = none ∧ Outcome.isSuccess 201 = true) ∧
    push escapedReply = .ok countedId.toHex ∧
    push (String.ofList (['\n'] ++ '"' :: (countedDigits ++ ['"']) ++ [' '])) =
      .ok countedId.toHex ∧
    push (String.ofList (['\n'] ++ countedDigits ++ [' '])) = .ok countedId.toHex ∧
    push (String.ofList (['\n'] ++ decimalDigits ++ [' '])) =
      .error (.mismatch .noPushedTxId) := by
  intro push
  have hschema : plainClient.schema.broadcast.txid = none := rfl
  have hsuccess : Outcome.isSuccess 201 = true := rfl
  have hbefore : IsSpaces ['\n'] := List.forall_mem_singleton.2 (by decide)
  have hafter : IsSpaces [' '] := List.forall_mem_singleton.2 (by decide)
  have hshown : countedId.Displays
      (Text.trimChars (String.ofList (countedDigits ++ [' '])).toList) := by
    have htrim := displays_counted.trim_padded (List.forall_mem_nil _) hafter
    rw [List.nil_append] at htrim
    rw [← Text.toList_trim, htrim, String.toList_ofList]
    exact displays_counted
  have hletter : ¬ Json.WritesNumber countedDigits := by
    intro hnumber
    have hF : 'F' ∈ countedDigits := by decide
    exact absurd (hnumber.chars 'F' hF) (by decide)
  obtain ⟨hdocument, halone⟩ := push_displayed hschema hsuccess countedId "00"
  obtain ⟨hquoted, -, hbare⟩ := halone _ _ _ hbefore displays_counted hafter
  obtain ⟨-, hnumber, -⟩ := (push_displayed hschema hsuccess decimalId "00").2 _ _ _ hbefore
    displays_decimal hafter
  exact ⟨⟨hschema, hsuccess⟩, hdocument _ _ read?_escapedReply hshown, hquoted, hbare hletter,
    hnumber writesNumber_decimal⟩

/-- An id whose digits are all decimal is not found in a bare reply. -/
theorem push_displayed_decimal :
    (plainClient.push "00").run (fun _ => .reply 200 decimalId.toHex) =
      .error (.mismatch .noPushedTxId) := by
  have hlower : decimalDigits.map Char.toLower = decimalDigits := List.map_replicate
  have htoHex : decimalId.toHex = String.ofList decimalDigits := by
    rw [← hlower, displays_decimal, String.ofList_toList]
  obtain ⟨n, hread⟩ := Json.exists_read?_hex displays_decimal.digits writesNumber_decimal
  rw [htoHex]
  apply push_number rfl rfl
  rwa [Text.trim_ofList displays_decimal.isBlank]

end LedgerClient

end CashWallet
