import CashWallet.Json.Printer
import CashWallet.Number.Decimal
import CashWallet.Transaction.Error

/-!
# Faults of the ledger

What can go wrong between the wallet and a backend. A mismatch is a reply that does not say what
its schema promises. The details of a malformed document or of a failed connection are left out of
the messages: `<json>` and `<transport>` stand for them.
-/

namespace CashWallet

/-- How a reply fails to match its schema. -/
inductive Mismatch where
  | malformed
  | missingList (pointer : String)
  | notArray (pointer : String) (found : Json)
  | amountText (text : String) (fault : Decimal.Fault)
  | negativeAmount (text : String)
  | amountRange (text : String)
  | amountForm (found : Json)
  | integerForm (shown : String)
  | textForm (found : Json)
  | addressForm (found : Json)
  | addressField (found : Json)
  | txid (text : String) (fault : CodecError)
  | missingBalance (pointer : String)
  | unspentForm (found : Json)
  | missingTxId (pointer : String)
  | indexRange
  | script (fault : ScriptError)
  | transactionForm (found : Json)
  | noPushedTxId
  | draftForm (text : String)
  | draftWithout (pointer : String)
  | digestForm (found : Json)
  | draftBody
  | noTxIdAt (pointer : String)
  | replyTxId (text : String)
  | noRate (pointer : String)

namespace Mismatch

def message : Mismatch → String
  | malformed => "<json>"
  | missingList pointer => "missing list " ++ pointer
  | notArray pointer found => pointer ++ " is not an array: " ++ found.print
  | amountText text fault => "invalid amount " ++ Text.quoted text ++ ": " ++ fault.message
  | negativeAmount text => "negative amount " ++ text
  | amountRange text => "amount out of range " ++ text
  | amountForm found => "amount is not numeric: " ++ found.print
  | integerForm shown => "not an unsigned integer: " ++ shown
  | textForm found => "not a string: " ++ found.print
  | addressForm found => "address is not a string: " ++ found.print
  | addressField found => "invalid address field: " ++ found.print
  | txid text fault => "invalid txid " ++ Text.quoted text ++ ": " ++ fault.message
  | missingBalance pointer => "missing balance " ++ pointer
  | unspentForm found => "utxo is not an object: " ++ found.print
  | missingTxId pointer => "utxo without txid " ++ pointer
  | indexRange => "output index exceeds u32"
  | script fault => "invalid script: " ++ fault.message
  | transactionForm found => "transaction is not an object: " ++ found.print
  | noPushedTxId => "no txid in push response"
  | draftForm text => "draft is not JSON: " ++ text
  | draftWithout pointer => "draft without " ++ pointer
  | digestForm found => "tosign entry is not a string: " ++ found.print
  | draftBody => "draft body is not an object"
  | noTxIdAt pointer => "no txid at " ++ pointer
  | replyTxId text => "invalid txid in response: " ++ text
  | noRate pointer => "no rate at " ++ pointer

end Mismatch

inductive LedgerError where
  | transport
  | emptyResponse (url : String)
  | emptySubmission
  | httpStatus (status : Nat) (body : String)
  | mismatch (cause : Mismatch)
  | rejected (body : String)
  | cancelled
  | unsupported (backend operation : String)
  | storeOffline
  | walletId (id : String)
  | transaction (fault : TransactionError)

namespace LedgerError

/-- The name of the kind of fault. -/
def kind : LedgerError → String
  | transport => "NetworkUnavailable"
  | emptyResponse _ => "NetworkUnavailable"
  | emptySubmission => "NetworkUnavailable"
  | httpStatus _ _ => "HttpStatus"
  | mismatch _ => "DecodeMismatch"
  | rejected _ => "BroadcastRejected"
  | cancelled => "Cancelled"
  | unsupported _ _ => "Unsupported"
  | storeOffline => "Cache"
  | walletId _ => "Cache"
  | transaction fault => "Transaction." ++ fault.kind

def message : LedgerError → String
  | transport => "network unavailable: <transport>"
  | emptyResponse url => "network unavailable: empty response from " ++ url
  | emptySubmission => "network unavailable: empty submission response"
  | httpStatus status body => "server error (" ++ toString status ++ "): " ++ body
  | mismatch cause => "decode mismatch: " ++ cause.message
  | rejected body => "broadcast rejected: " ++ body
  | cancelled => "fetch cancelled"
  | unsupported backend operation =>
    "unsupported by backend " ++ backend ++ ": " ++ operation
  | storeOffline => "cache error: store offline"
  | walletId id => "cache error: invalid wallet id " ++ Text.quoted id
  | transaction fault => "transaction error: " ++ fault.message

end LedgerError

end CashWallet
