import CashWallet.Ledger.Config
import CashWallet.Toml.Record
import CashWallet.Transaction.Digest
import CashWallet.Transaction.Fee
import CashWallet.Wallet.Error

/-!
# Wallet configuration

What a wallet needs besides its key, written as a TOML document. Every field has a default, but a
size model is given whole or not at all. Unknown fields are passed over.
-/

namespace CashWallet

structure WalletConfig where
  ledger : LedgerConfig := {}
  market : MarketConfig := {}
  feePerByte : UInt64 := 60
  /-- Change below this value is left to the fee. -/
  dustThreshold : UInt64 := 546
  sizeModel : SizeModel := .standard
  /-- Where cache files are kept; without it, the cache is kept in memory. -/
  cacheDir : Option String := none
  /-- The digest algorithm, where it is not the one that follows from the backend. -/
  digest : Option DigestAlgorithm := none

def LedgerConfig.ofToml? (t : Toml) : Option LedgerConfig := do
  let fallback : LedgerConfig := {}
  let r ← t.record? ["backend", "network", "base_url", "api_token", "timeout_secs"]
  return {
    backend := ← r.withDefault 0 fallback.backend (Toml.choice? Backend.named)
    network := ← r.withDefault 1 fallback.network (Toml.choice? Network.named)
    baseUrl := ← r.withDefault 2 fallback.baseUrl fun v => v.string?.map some
    apiToken := ← r.withDefault 3 fallback.apiToken fun v => v.string?.map some
    timeoutSeconds := ← r.withDefault 4 fallback.timeoutSeconds Toml.uint64? }

def MarketConfig.ofToml? (t : Toml) : Option MarketConfig := do
  let fallback : MarketConfig := {}
  let r ← t.record? ["fees_url", "ticker_url", "quote_url"]
  return {
    feesUrl := ← r.withDefault 0 fallback.feesUrl Toml.string?
    tickerUrl := ← r.withDefault 1 fallback.tickerUrl Toml.string?
    quoteUrl := ← r.withDefault 2 fallback.quoteUrl Toml.string? }

def SizeModel.ofToml? (t : Toml) : Option SizeModel := do
  let r ← t.record? ["base", "per_input", "per_output"]
  return {
    base := ← r.required 0 Toml.uint64?
    perInput := ← r.required 1 Toml.uint64?
    perOutput := ← r.required 2 Toml.uint64? }

namespace WalletConfig

def ofToml? (t : Toml) : Option WalletConfig := do
  let fallback : WalletConfig := {}
  let r ← t.record? ["provider", "market", "fee_per_byte", "dust_threshold", "size_model",
    "cache_dir", "sighash"]
  return {
    ledger := ← r.withDefault 0 fallback.ledger LedgerConfig.ofToml?
    market := ← r.withDefault 1 fallback.market MarketConfig.ofToml?
    feePerByte := ← r.withDefault 2 fallback.feePerByte Toml.uint64?
    dustThreshold := ← r.withDefault 3 fallback.dustThreshold Toml.uint64?
    sizeModel := ← r.withDefault 4 fallback.sizeModel SizeModel.ofToml?
    cacheDir := ← r.withDefault 5 fallback.cacheDir fun v => v.string?.map some
    digest := ← r.withDefault 6 fallback.digest fun v =>
      (Toml.choice? DigestAlgorithm.named v).map some }

/-- Read a document. -/
def ofText (text : String) : Except WalletError WalletConfig :=
  match (Toml.parse? text).bind ofToml? with
  | some config => .ok config
  | none => .error .config

/-- The digest algorithm of a backend's chain. -/
def chainDigest : Backend → DigestAlgorithm
  | .blockcypher => .legacy
  | .bitcoinCom => .forkId

/-- The digest algorithm that signatures are made with. -/
def digestAlgorithm (c : WalletConfig) : DigestAlgorithm :=
  c.digest.getD (chainDigest c.ledger.backend)

end WalletConfig

end CashWallet
