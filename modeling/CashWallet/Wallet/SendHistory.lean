import CashWallet.Wallet.Error

/-!
# The course of a payment

Every stage that a payment has passed through. A stage is entered only if it may follow the one
before it; a payment that is over can only start anew.
-/

namespace CashWallet

structure SendHistory where
  earlier : List SendState
  state : SendState
  deriving DecidableEq, Repr

namespace SendHistory

def start : SendHistory := ⟨[], .unfunded⟩

instance : Inhabited SendHistory := ⟨start⟩

/-- All stages, from the first to the present one. -/
def states (h : SendHistory) : List SendState :=
  h.earlier ++ [h.state]

def isTerminal (h : SendHistory) : Bool :=
  h.state.isTerminal

def enter (h : SendHistory) (next : SendState) : SendHistory :=
  ⟨h.states, next⟩

/-- Go on to the next stage. -/
def advance (h : SendHistory) (next : SendState) : Except WalletError SendHistory :=
  if h.state.allows next then .ok (h.enter next) else .error (.invalidState h.state next)

/-- Fail, unless the payment is over. -/
def fail (h : SendHistory) (reason : String) : SendHistory :=
  if h.isTerminal then h else h.enter (.failed reason)

/-- Start anew after the end. -/
def restart (h : SendHistory) : Except WalletError SendHistory :=
  if h.isTerminal then .ok start else .error (.invalidState h.state .unfunded)

/-- Close a payment that ran into a fault: what the network refused after it was submitted is
rejected, all else has failed. -/
def close (h : SendHistory) (fault : WalletError) : SendHistory :=
  if fault.isRejection && h.state = .submitted then
    match h.advance .rejected with
    | .ok closed => closed
    | .error refused => h.fail refused.message
  else h.fail fault.message

/-! ## Calls -/

/-- What can be called on the course of a payment. -/
inductive Call where
  | advance (next : SendState)
  | fail (reason : String)
  | restart
  deriving DecidableEq, Repr

/-- The result of a call and the course after it. A call that is refused has no other effect. -/
def call (h : SendHistory) (c : Call) : Except WalletError Unit × SendHistory :=
  let changed := match c with
    | .advance next => h.advance next
    | .fail reason => .ok (h.fail reason)
    | .restart => h.restart
  match changed with
  | .ok h' => (.ok (), h')
  | .error fault => (.error fault, h)

/-- The course after a sequence of calls, whatever their results are. -/
def after (h : SendHistory) (calls : List Call) : SendHistory :=
  calls.foldl (fun h c => (h.call c).2) h

end SendHistory

end CashWallet
