import CashWallet.Cache.Entry
import CashWallet.Ledger.Fees
import CashWallet.Ledger.HistoryEntry
import CashWallet.Transaction.Basic

/-!
# Ledger data in the cache
-/

namespace CashWallet.CacheStore

def balance? (s : CacheStore) : Option UInt64 :=
  s.loadAmount? .balance

def unspents? (s : CacheStore) : Option (List Unspent) :=
  s.load? .unspents (Json.list? Unspent.ofJson?)

def transactions? (s : CacheStore) : Option (List HistoryEntry) :=
  s.load? .transactions (Json.list? HistoryEntry.ofJson?)

def fees? (s : CacheStore) : Option Fees :=
  s.load? .fees Fees.ofJson?

def usd? (s : CacheStore) : Option Binary64 :=
  s.loadRate? .rateUsd

def bch? (s : CacheStore) : Option Binary64 :=
  s.loadRate? .rateBch

end CashWallet.CacheStore
