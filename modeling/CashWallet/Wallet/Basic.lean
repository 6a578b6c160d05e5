import CashWallet.Ledger.Market
import CashWallet.Ledger.Submission
import CashWallet.Transaction.Selection
import CashWallet.Wallet.Config
import CashWallet.Wallet.SendHistory

/-!
# Wallets

A wallet has one key and one address. What it knows of the ledger is what its cache holds; a reload
asks the backend and brings the cache up to date, or fails and leaves it alone.
-/

namespace CashWallet

structure Wallet where
  key : PrivateKey
  config : WalletConfig
  ledger : LedgerState
  /-- The course of the latest payment. -/
  lastSend : Option SendHistory

namespace Wallet

/-- The name in the place of a backend for what the wallet itself writes. -/
def backendName : String := "wallet"

/-- A wallet over a store. The version byte of its key is that of the network. -/
def ofStore (key : PrivateKey) (config : WalletConfig) (store : CacheStore) : Wallet where
  key := { key with wifPrefix := config.ledger.network.wifPrefix }
  config := config
  ledger := .ofStore store
  lastSend := none

/-- The name of a wallet's folder: its public key in the compressed form. -/
def folderName (key : PrivateKey) : String :=
  Hex.encode key.publicKey.toCompressed

/-- A wallet over the folder of its key, among the files of the configured directory. Where no
directory is configured, it has a new store in memory. -/
def openIn (files : Entries) (key : PrivateKey) (config : WalletConfig) :
    Except WalletError Wallet :=
  match config.cacheDir with
  | none => .ok (ofStore key config .empty)
  | some _ => do
    let id ← (WalletId.ofString (folderName key)).mapError .ledger
    return ofStore key config (.folder id files)

/-- A wallet from the import format of its key. -/
def ofWif (files : Entries) (wif : String) (config : WalletConfig) : Except WalletError Wallet := do
  openIn files (← (PrivateKey.ofWif wif).mapError .codec) config

/-- A wallet from the key that a store holds. -/
def restore (store : CacheStore) (config : WalletConfig) : Except WalletError Wallet := do
  match store.loadText? .wif with
  | none => throw .noKey
  | some wif => return ofStore (← (PrivateKey.ofWif wif).mapError .codec) config store

def store (w : Wallet) : CacheStore := w.ledger.store

def withStore (w : Wallet) (store : CacheStore) : Wallet :=
  { w with ledger := { w.ledger with store } }

/-- Keep the key in the store. -/
def save (w : Wallet) : Except WalletError Wallet := do
  return w.withStore
    (← (w.store.storeText .wif backendName w.key.toWif).mapError .ledger)

def address (w : Wallet) : Address :=
  .ofPublicKey w.key.publicKey w.config.ledger.network

/-- Every address that the wallet controls. -/
def addresses (w : Wallet) : List Address := [w.address]

def client (w : Wallet) : LedgerClient := .ofConfig w.config.ledger

def market (w : Wallet) : Market := ⟨w.config.market, w.config.ledger.apiToken⟩

def selector (w : Wallet) : Selector := ⟨w.config.feePerByte, w.config.sizeModel⟩

/-! ## What the wallet knows -/

def balance (w : Wallet) : UInt64 := w.store.balance?.getD 0

def unspents (w : Wallet) : List Unspent := w.store.unspents?.getD []

def transactions (w : Wallet) : List HistoryEntry := w.store.transactions?.getD []

def fees (w : Wallet) : Fees := w.store.fees?.getD .unknown

def rateUsd (w : Wallet) : Binary64 := w.store.usd?.getD (.zero false)

def rateBch (w : Wallet) : Binary64 := w.store.bch?.getD (.zero false)

/-! ## Reloads -/

def reload (w : Wallet) (f : Fetch α) : Exchange (Except WalletError α × Wallet) := do
  let (result, ledger) ← w.client.fetch f w.ledger
  return (result.mapError .ledger, { w with ledger })

def reloadBalance (w : Wallet) : Exchange (Except WalletError UInt64 × Wallet) :=
  w.reload (.balance w.client.schema w.address)

def reloadUnspents (w : Wallet) : Exchange (Except WalletError (List Unspent) × Wallet) :=
  w.reload (.unspents w.client.schema w.address)

def reloadTransactions (w : Wallet) : Exchange (Except WalletError (List HistoryEntry) × Wallet) :=
  w.reload (.transactions w.client.schema w.address)

/-- Let market data be fetched for the wallet. -/
def reloadMarket (w : Wallet) (fetch : CacheStore → Exchange (Except LedgerError α × CacheStore)) :
    Exchange (Except WalletError α × Wallet) := do
  let (result, store) ← fetch w.store
  return (result.mapError .ledger, w.withStore store)

def reloadFees (w : Wallet) : Exchange (Except WalletError Fees × Wallet) :=
  w.reloadMarket w.market.fetchFees

/-- Reload both exchange rates, one after the other. -/
def reloadRates (w : Wallet) : Exchange (Except WalletError (Binary64 × Binary64) × Wallet) := do
  match ← w.reloadMarket w.market.fetchUsd with
  | (.error fault, w) => return (.error fault, w)
  | (.ok usd, w) =>
    match ← w.reloadMarket w.market.fetchBch with
    | (.error fault, w) => return (.error fault, w)
    | (.ok bch, w) => return (.ok (usd, bch), w)

/-- Cancel every reload that is under way. -/
def cancelReloads (w : Wallet) : Wallet :=
  { w with ledger := w.ledger.cancelAll }

/-- The description of a wallet, which leaves its key out. -/
def describe (w : Wallet) : String :=
  "Wallet \x7b address: " ++ Text.quoted w.address.text ++ ", backend: " ++
    Text.quoted w.client.schema.name ++ ", .. \x7d"

end Wallet

end CashWallet
