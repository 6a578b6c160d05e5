import CashWallet.Wallet.Session

/-!
# A wallet whose store is in other hands as well

Others may write the store of a wallet between its calls. What happens to the wallet is then a
sequence of calls and of such writes, in any order.
-/

namespace CashWallet.Wallet

/-- What can happen to a wallet. -/
inductive Event where
  | called (c : Call)
  /-- Others put bytes under a key of the cache. -/
  | written (key : CacheKey) (bytes : Bytes)
  /-- Others erase what is under a key of the cache. -/
  | erased (key : CacheKey)

/-- What others leave alone: an event is a call, or it is about another key. -/
def Event.Spares (key : CacheKey) : Event → Prop
  | called _ => True
  | written other _ => other ≠ key
  | erased other => other ≠ key

instance (key : CacheKey) : (e : Event) → Decidable (e.Spares key)
  | .called _ => inferInstanceAs (Decidable True)
  | .written other _ => inferInstanceAs (Decidable (other ≠ key))
  | .erased other => inferInstanceAs (Decidable (other ≠ key))

namespace Session

/-- Others have done something to the store, unless it refused. -/
def edited (s : Session) (result : Except LedgerError CacheStore) : Session :=
  match result with
  | .ok store => { s with wallet := s.wallet.withStore store }
  | .error _ => s

def meet (s : Session) : Event → Session
  | .called c => s.step c
  | .written key bytes => s.edited (s.wallet.store.set key.name bytes)
  | .erased key => s.edited (s.wallet.store.erase key)

/-- The session after a sequence of events. -/
def through (s : Session) (events : List Event) : Session := events.foldl meet s

end Session

end CashWallet.Wallet
