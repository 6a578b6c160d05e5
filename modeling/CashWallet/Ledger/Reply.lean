import CashWallet.Ledger.Error
import CashWallet.Ledger.Exchange
import CashWallet.Json.Pointer
import CashWallet.Json.Parser
import CashWallet.Text.Whitespace

/-!
# Replies

A request for a document is answered well by a status of success with a JSON value. What is
submitted may also be answered by bare text, and may be refused: by any other status, or by an error
field that says something. A refusal keeps the words of the backend.
-/

namespace CashWallet

namespace Outcome

def isSuccess (status : Nat) : Bool :=
  200 ≤ status && status < 300

def isBlank (body : String) : Bool :=
  (Text.trim body).isEmpty

/-- The document that was asked for. -/
def document (url : String) : Outcome → Except LedgerError Json
  | unreachable => .error .transport
  | reply status body =>
    if !isSuccess status then .error (.httpStatus status body)
    else if isBlank body then .error (.emptyResponse url)
    else
      match Json.read? body with
      | some j => .ok j
      | none => .error (.mismatch .malformed)

end Outcome

/-- An answer to a submission that is no refusal. -/
inductive SubmissionReply where
  | value (j : Json)
  | text (s : String)

namespace SubmissionReply

/-- Whether a field tells of an error: it is there, and neither null nor an empty array. -/
def tellsError (j : Json) (errorField : String) : Bool :=
  match j.field? errorField with
  | none => false
  | some .null => false
  | some (.array []) => false
  | some _ => true

def ofOutcome (errorField : String) : Outcome → Except LedgerError SubmissionReply
  | .unreachable => .error .transport
  | .reply status body =>
    if !Outcome.isSuccess status then .error (.rejected body)
    else if Outcome.isBlank body then .error .emptySubmission
    else
      match Json.read? (Text.trim body) with
      | some j => if tellsError j errorField then .error (.rejected body) else .ok (.value j)
      | none => .ok (.text (Text.trim body))

end SubmissionReply

end CashWallet
