import CashWallet.Ledger.Schema

/-!
# Where the ledger is found

Which backend to ask and how, and where market data come from.
-/

namespace CashWallet

structure LedgerConfig where
  backend : Backend := .bitcoinCom
  network : Network := .mainnet
  /-- A base URL in place of the one of the schema. -/
  baseUrl : Option String := none
  apiToken : Option String := none
  timeoutSeconds : UInt64 := 30
  deriving DecidableEq, Repr

namespace LedgerConfig

/-- The schema of the backend, at its base URL. -/
def schema (c : LedgerConfig) : Schema :=
  (Schema.ofBackend c.backend c.network).withBaseUrl c.baseUrl

end LedgerConfig

structure MarketConfig where
  feesUrl : String := "https://bitcoinfees.earn.com/api/v1/fees/recommended"
  tickerUrl : String := "https://blockchain.info/ticker"
  quoteUrl : String := "https://api.coinmarketcap.com/v2/ticker/1831/"
  deriving DecidableEq, Repr

end CashWallet
