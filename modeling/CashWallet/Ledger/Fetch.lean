import CashWallet.Ledger.Config
import CashWallet.Ledger.Flights
import CashWallet.Ledger.Normalize
import CashWallet.Ledger.Reply

/-!
# Fetching ledger data

A fetch asks for one document, decodes it by the schema, and only then writes the cache. A fetch that
has been cancelled when its reply comes in does not even look at it.
-/

namespace CashWallet

/-- What is to be fetched: where from, how to decode it, and how it is written to the cache. -/
structure Fetch (α : Type) where
  key : CacheKey
  url : String
  decode : Json → Except Mismatch α
  encode : α → Json

namespace Fetch

def balance (schema : Schema) (address : Address) : Fetch UInt64 where
  key := .balance
  url := schema.url schema.balance.path address.text
  decode payload := Ledger.decodeBalance payload schema.balance
  encode amount := .string (toString amount)

def unspents (schema : Schema) (address : Address) : Fetch (List Unspent) where
  key := .unspents
  url := schema.url schema.unspent.path address.text
  decode payload := Ledger.decodeUnspents payload schema.unspent address
  encode us := .array (us.map Unspent.toJson)

def transactions (schema : Schema) (address : Address) : Fetch (List HistoryEntry) where
  key := .transactions
  url := schema.url schema.history.path address.text
  decode payload := Ledger.decodeClassified payload schema.history address.text
  encode es := .array (es.map HistoryEntry.toJson)

/-- The value that a reply brings. -/
def read (f : Fetch α) (outcome : Outcome) : Except LedgerError α := do
  let payload ← outcome.document f.url
  (f.decode payload).mapError LedgerError.mismatch

end Fetch

/-- A backend as its schema describes it, and the token that it is asked with. -/
structure LedgerClient where
  schema : Schema
  token : Option String

namespace LedgerClient

def ofConfig (c : LedgerConfig) : LedgerClient := ⟨c.schema, c.apiToken⟩

/-- Another schema, at the configured base URL. -/
def withSchema (schema : Schema) (c : LedgerConfig) : LedgerClient :=
  ⟨schema.withBaseUrl c.baseUrl, c.apiToken⟩

/-- The end of a fetch for which a value is there. -/
def settle (c : LedgerClient) (f : Fetch α) (generation : Nat) (value : α) (s : LedgerState) :
    Except LedgerError α × LedgerState :=
  match s.commit f.key generation c.schema.name (f.encode value) with
  | (.ok (), s) => (.ok value, s)
  | (.error .cancelled, s) => (.error .cancelled, s)
  | (.error fault, s) => (.error fault, s.abandon f.key generation)

/-- The end of a fetch. -/
def finish (c : LedgerClient) (f : Fetch α) (generation : Nat) (outcome : Outcome)
    (s : LedgerState) : Except LedgerError α × LedgerState :=
  if s.flights.isCancelled generation then (.error .cancelled, s)
  else
    match f.read outcome with
    | .ok value => c.settle f generation value s
    | .error fault => (.error fault, s.abandon f.key generation)

def requestFor (c : LedgerClient) (f : Fetch α) : Request :=
  .get f.url c.token

/-- A fetch from its begin to its end, with nothing in between. -/
def fetch (c : LedgerClient) (f : Fetch α) (s : LedgerState) :
    Exchange (Except LedgerError α × LedgerState) :=
  let (generation, s) := s.begin f.key
  .ask (c.requestFor f) fun outcome => .done (c.finish f generation outcome s)

/-- The description of a client, with its backend and where that is. -/
def describe (c : LedgerClient) : String :=
  "ProviderAdapter \x7b backend: " ++ Text.quoted c.schema.name ++ ", base_url: " ++
    Text.quoted c.schema.baseUrl ++ ", .. \x7d"

end LedgerClient

end CashWallet
