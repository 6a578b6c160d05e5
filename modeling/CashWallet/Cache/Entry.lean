import CashWallet.Cache.Store
import CashWallet.Json.Document
import CashWallet.Json.Record
import CashWallet.Number.FloatParse
import CashWallet.Number.FloatText
import CashWallet.Number.Integer

/-!
# Cache entries

An entry is a JSON record of a version, the name of the backend that the value came from, and the
value. Values have the same form whatever the backend is, so an entry written through one backend is
read through another. An entry that is absent, malformed or of another version reads as nothing.
The version is read first and on its own: only then does the form of the value matter.
-/

namespace CashWallet

/-- What the cache keeps. -/
inductive CacheKey where
  | balance
  | unspents
  | transactions
  | fees
  | rateUsd
  | rateBch
  | wif
  deriving DecidableEq, Repr

namespace CacheKey

def name : CacheKey → String
  | balance => "balance"
  | unspents => "utxos"
  | transactions => "transactions"
  | fees => "fees"
  | rateUsd => "rateUSD"
  | rateBch => "rateBCH"
  | wif => "wif"

def named : List (String × CacheKey) :=
  [balance, unspents, transactions, fees, rateUsd, rateBch, wif].map fun k => (k.name, k)

end CacheKey

namespace CacheEntry

/-- The version of the entries that are written, and of those that are read. -/
def version : UInt32 := 1

def encode (backend : String) (value : Json) : Bytes :=
  utf8Bytes <| Json.print <|
    .object [("version", .ofUInt32 version), ("backend", .string backend), ("value", value)]

/-- What stands before the value. -/
structure Header where
  version : UInt32
  backend : String

/-- The document of an entry. Members that nobody asks for need not stand for anything. -/
def document? (entry : Bytes) : Option Json :=
  Json.parseBytes? entry

def header? (entry : Bytes) : Option Header := do
  let r ← (← document? entry).record? ["version", "backend"]
  return { version := ← r.required 0 Json.uint32?, backend := ← r.required 1 Json.string? }

/-- The value of an entry whose header has been read. -/
def value? (decode : Json → Option α) (entry : Bytes) : Option α := do
  let r ← (← document? entry).record? ["version", "backend", "value"]
  let _ ← r.required 0 Json.uint32?
  let _ ← r.required 1 Json.string?
  r.required 2 decode

def decode? (decode : Json → Option α) (entry : Bytes) : Option α :=
  (header? entry).bind fun header =>
    if header.version = version then value? decode entry else none

end CacheEntry

namespace CacheStore

/-- The bytes under a key, where they can be read. -/
def entry? (s : CacheStore) (key : CacheKey) : Option Bytes :=
  match s.get key.name with
  | .ok found => found
  | .error _ => none

/-- The value under a key. -/
def load? (s : CacheStore) (key : CacheKey) (decode : Json → Option α) : Option α :=
  (s.entry? key).bind (CacheEntry.decode? decode)

/-- Put a value under a key, with the name of the backend that it came from. -/
def store (s : CacheStore) (key : CacheKey) (backend : String) (value : Json) :
    Except LedgerError CacheStore :=
  s.set key.name (CacheEntry.encode backend value)

def loadText? (s : CacheStore) (key : CacheKey) : Option String :=
  s.load? key Json.string?

def storeText (s : CacheStore) (key : CacheKey) (backend text : String) :
    Except LedgerError CacheStore :=
  s.store key backend (.string text)

/-- An amount, which is kept as a decimal text. -/
def loadAmount? (s : CacheStore) (key : CacheKey) : Option UInt64 :=
  (s.loadText? key).bind Integer.u64?

def storeAmount (s : CacheStore) (key : CacheKey) (backend : String) (amount : UInt64) :
    Except LedgerError CacheStore :=
  s.storeText key backend (toString amount)

/-- A rate, which is kept as a decimal text. -/
def loadRate? (s : CacheStore) (key : CacheKey) : Option Binary64 :=
  (s.loadText? key).bind Binary64.ofText?

def storeRate (s : CacheStore) (key : CacheKey) (backend : String) (rate : Binary64) :
    Except LedgerError CacheStore :=
  s.storeText key backend (rate.format .plain)

/-- The backend that the entry under a key came from, whatever its version. -/
def backendOf? (s : CacheStore) (key : CacheKey) : Option String :=
  ((s.entry? key).bind CacheEntry.header?).map CacheEntry.Header.backend

def erase (s : CacheStore) (key : CacheKey) : Except LedgerError CacheStore :=
  s.remove key.name

/-- The description of a cache, which leaves its entries out. -/
def describe (_ : CacheStore) : String := "Cache \x7b .. \x7d"

end CacheStore

end CashWallet
