import CashWallet.Ledger.Exchange

/-!
# Runs of conversations

A conversation in two parts is run part by part, and the second part is told of all requests before
it. What is true at the end of every run is shown along the parts of a conversation.
-/

namespace CashWallet.Exchange

variable {α β : Type} {P : α → Prop} {Q : β → Prop}

theorem runFrom_bind (answer : List Request → Outcome) (x : Exchange α) (f : α → Exchange β)
    (asked : List Request) :
    runFrom answer asked (x.bind f) =
      runFrom answer (requestsFrom answer asked x) (f (runFrom answer asked x)) := by
  induction x generalizing asked with
  | done a => rfl
  | ask r next ih => exact ih _ _

/-- However a conversation goes, and whatever has been asked before it, what it ends with has a
property. -/
def Ends (P : α → Prop) (x : Exchange α) : Prop :=
  ∀ answer asked, P (x.runFrom answer asked)

theorem ends_done {a : α} (h : P a) : Ends P (done a) :=
  fun _ _ => h

theorem ends_ask {r : Request} {next : Outcome → Exchange α}
    (h : ∀ outcome, Ends P (next outcome)) : Ends P (ask r next) :=
  fun answer asked => h _ answer (asked ++ [r])

theorem Ends.bind {x : Exchange α} {f : α → Exchange β} (hx : Ends P x)
    (hf : ∀ a, P a → Ends Q (f a)) : Ends Q (x.bind f) := by
  intro answer asked
  rw [runFrom_bind]
  apply hf
  exact hx answer asked

theorem Ends.imp {P' : α → Prop} {x : Exchange α} (hx : Ends P x) (h : ∀ a, P a → P' a) :
    Ends P' x :=
  fun answer asked => h _ (hx answer asked)

end CashWallet.Exchange
