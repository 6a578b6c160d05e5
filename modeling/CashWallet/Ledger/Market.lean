import CashWallet.Cache.Ledger
import CashWallet.Ledger.Config
import CashWallet.Ledger.Reply

/-!
# Market data

Recommended fee rates and exchange rates. What is fetched is written to the cache at once.
-/

namespace CashWallet

/-- Where market data come from, and the token that is sent along. -/
structure Market where
  config : MarketConfig
  token : Option String

namespace Market

/-- The name in the place of a backend for cache entries. -/
def backendName : String := "market"

/-- Ask for a document, decode it, and write what it says to the cache. -/
def fetch (m : Market) (url : String) (decode : Json → Except LedgerError α)
    (write : CacheStore → α → Except LedgerError CacheStore) (store : CacheStore) :
    Exchange (Except LedgerError α × CacheStore) :=
  .ask (.get url m.token) fun outcome => .done <|
    match (outcome.document url).bind decode with
    | .error fault => (.error fault, store)
    | .ok value =>
      match write store value with
      | .ok store => (.ok value, store)
      | .error fault => (.error fault, store)

def decodeFees (j : Json) : Except LedgerError Fees :=
  match Fees.ofJson? j with
  | some fees => .ok fees
  | none => .error (.mismatch .malformed)

def fetchFees (m : Market) (store : CacheStore) : Exchange (Except LedgerError Fees × CacheStore) :=
  m.fetch m.config.feesUrl decodeFees (fun store fees => store.store .fees backendName fees.toJson)
    store

/-- A rate is a number, or a text that reads as one. -/
def rate? : Json → Option Binary64
  | .string s => Binary64.ofText? s
  | j => j.binary64?

def decodeRate (pointer : String) (j : Json) : Except LedgerError Binary64 :=
  match (j.pointer? pointer).bind rate? with
  | some rate => .ok rate
  | none => .error (.mismatch (.noRate pointer))

def fetchRate (m : Market) (url pointer : String) (key : CacheKey) (store : CacheStore) :
    Exchange (Except LedgerError Binary64 × CacheStore) :=
  m.fetch url (decodeRate pointer) (fun store rate => store.storeRate key backendName rate) store

/-- The average price of the last quarter of an hour. -/
def fetchUsd (m : Market) : CacheStore → Exchange (Except LedgerError Binary64 × CacheStore) :=
  m.fetchRate m.config.tickerUrl "/USD/15m" .rateUsd

def fetchBch (m : Market) : CacheStore → Exchange (Except LedgerError Binary64 × CacheStore) :=
  m.fetchRate m.config.quoteUrl "/data/quotes/USD/price" .rateBch

end Market

end CashWallet
