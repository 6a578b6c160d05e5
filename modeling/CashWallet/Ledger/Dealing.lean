import CashWallet.Ledger.Broadcaster

/-!
# Dealings with a broadcaster

What is asked of a broadcaster is a finite tree whose branches are its replies. Carried out with a
broadcaster, a dealing is a conversation; how the replies come about is the broadcaster's affair. A
path through the tree is what was asked and replied in one run, so whatever holds along every path
holds for every behaviour of every broadcaster.
-/

namespace CashWallet

/-- What is handed over in the end: a signed transaction, or a draft with its signatures. -/
inductive Submission where
  | raw (text : String)
  | signedDraft (draft : Draft) (signatures : DraftSignatures)

def Broadcaster.submit (b : Broadcaster) : Submission → Exchange (Except LedgerError String)
  | .raw text => b.broadcast text
  | .signedDraft draft signatures => b.submitDraft draft signatures

inductive Dealing (α : Type) where
  | done (a : α)
  | askDraft (source target : Address) (amount : UInt64)
      (next : Except LedgerError Draft → Dealing α)
  | submit (submission : Submission) (next : Except LedgerError String → Dealing α)

namespace Dealing

/-- One thing that was asked, with the reply. -/
inductive Event where
  | drafted (source target : Address) (amount : UInt64) (reply : Except LedgerError Draft)
  | submitted (submission : Submission) (reply : Except LedgerError String)

/-- The reply to a submission. -/
def Event.submission? : Event → Option (Except LedgerError String)
  | drafted _ _ _ _ => none
  | submitted _ reply => some reply

/-- The replies to all submissions, in order. -/
def submissions (events : List Event) : List (Except LedgerError String) :=
  events.filterMap Event.submission?

/-- Ask a broadcaster what the dealing says. -/
def carryOut (b : Broadcaster) : Dealing α → Exchange α
  | done a => .done a
  | askDraft source target amount next =>
    (b.createDraft source target amount).bind fun reply => (next reply).carryOut b
  | submit submission next => (b.submit submission).bind fun reply => (next reply).carryOut b

/-- The events along a branch, and what it ends with. -/
inductive Path : Dealing α → List Event → α → Prop
  | done (a : α) : Path (.done a) [] a
  | askDraft {source target : Address} {amount : UInt64}
      {next : Except LedgerError Draft → Dealing α} {reply : Except LedgerError Draft}
      {events : List Event} {a : α} (tail : Path (next reply) events a) :
      Path (.askDraft source target amount next)
        (.drafted source target amount reply :: events) a
  | submit {submission : Submission} {next : Except LedgerError String → Dealing α}
      {reply : Except LedgerError String} {events : List Event} {a : α}
      (tail : Path (next reply) events a) :
      Path (.submit submission next) (.submitted submission reply :: events) a

end Dealing

end CashWallet
