import CashWallet.Ledger.Error
import CashWallet.Wallet.SendState

/-!
# Faults of the wallet

The details of a malformed configuration are left out of its message: `<toml>` stands for them.
-/

namespace CashWallet

inductive WalletError where
  | ledger (fault : LedgerError)
  | transaction (fault : TransactionError)
  | codec (fault : CodecError)
  | script (fault : ScriptError)
  | config
  | noKey
  | invalidState (source target : SendState)

namespace WalletError

/-- The name of the kind of fault. -/
def kind : WalletError → String
  | ledger fault => "Provider." ++ fault.kind
  | transaction fault => "Transaction." ++ fault.kind
  | codec fault => "Primitives." ++ fault.kind
  | script fault => "Script." ++ fault.kind
  | config => "Config"
  | noKey => "KeyNotFound"
  | invalidState _ _ => "InvalidState"

def message : WalletError → String
  | ledger fault => "provider error: " ++ fault.message
  | transaction fault => "transaction error: " ++ fault.message
  | codec fault => "primitives error: " ++ fault.message
  | script fault => "script error: " ++ fault.message
  | config => "config error: <toml>"
  | noKey => "no private key stored"
  | invalidState source target =>
    "invalid pipeline transition: " ++ source.describe ++ " -> " ++ target.describe

/-- The network refused a transaction. -/
def isRejection : WalletError → Bool
  | ledger (.rejected _) => true
  | _ => false

end WalletError

end CashWallet
