/-!
# Stages of a payment

A payment is funded, built, signed and submitted, in this order, and then confirmed or rejected by
the network. It may fail at any stage before its end.
-/

namespace CashWallet

inductive SendState where
  | unfunded
  | selected
  | built
  | signed
  | submitted
  | confirmed
  | rejected
  | failed (reason : String)
  deriving DecidableEq, Repr

namespace SendState

/-- Nothing follows an end. -/
def isTerminal : SendState → Bool
  | confirmed => true
  | rejected => true
  | failed _ => true
  | _ => false

/-- Whether a stage may directly follow another. -/
def allows : SendState → SendState → Bool
  | s, failed _ => !s.isTerminal
  | unfunded, selected => true
  | selected, built => true
  | built, signed => true
  | signed, submitted => true
  | submitted, confirmed => true
  | submitted, rejected => true
  | _, _ => false

def describe : SendState → String
  | unfunded => "unfunded"
  | selected => "selected"
  | built => "built"
  | signed => "signed"
  | submitted => "submitted"
  | confirmed => "confirmed"
  | rejected => "rejected"
  | failed reason => "failed: " ++ reason

/-- The stages without a reason, by their names. -/
def named : List (String × SendState) :=
  [unfunded, selected, built, signed, submitted, confirmed, rejected].map fun s => (s.describe, s)

end SendState

end CashWallet
