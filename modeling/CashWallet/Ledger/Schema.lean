import CashWallet.Address
import CashWallet.Json.Pointer

/-!
# Backend schemas

A backend is described by data: where its endpoints are, and which pointers lead to each field of
its replies. Pointers inside a list item start at the item. Two backends are built in.
-/

namespace CashWallet

/-- What an amount counts. -/
inductive AmountUnit where
  | satoshis
  | coins
  deriving DecidableEq, Repr

/-- The byte order of transaction ids. -/
inductive HashOrder where
  | display
  | internal
  deriving DecidableEq, Repr

structure BalanceMapping where
  path : String
  balance : String
  unit : AmountUnit
  deriving DecidableEq, Repr

structure UnspentMapping where
  path : String
  list : String
  listOptional : Bool
  txid : String
  index : String
  value : String
  script : Option String
  unit : AmountUnit
  hashOrder : HashOrder
  deriving DecidableEq, Repr

structure HistoryMapping where
  path : String
  list : String
  hash : String
  timestamp : String
  confirmations : String
  inputs : String
  inputAddresses : String
  outputs : String
  outputAddresses : String
  outputValue : String
  unit : AmountUnit
  deriving DecidableEq, Repr

structure BroadcastMapping where
  path : String
  bodyField : String
  txid : Option String
  errorField : String
  deriving DecidableEq, Repr

/-- The endpoints of a backend that builds transactions itself. -/
structure TwoPhaseMapping where
  newPath : String
  sendPath : String
  digests : String
  fee : String
  txid : String
  errorField : String
  deriving DecidableEq, Repr

structure Schema where
  name : String
  baseUrl : String
  balance : BalanceMapping
  unspent : UnspentMapping
  history : HistoryMapping
  broadcast : BroadcastMapping
  twoPhase : Option TwoPhaseMapping
  deriving DecidableEq, Repr

/-- The built-in backends. -/
inductive Backend where
  | blockcypher
  | bitcoinCom
  deriving DecidableEq, Repr, Inhabited

namespace AmountUnit

def name : AmountUnit → String
  | satoshis => "satoshis"
  | coins => "coins"

def named : List (String × AmountUnit) :=
  [satoshis, coins].map fun u => (u.name, u)

/-- One unit is `10 ^ places` satoshis. -/
def places : AmountUnit → Nat
  | satoshis => 0
  | coins => 8

end AmountUnit

namespace HashOrder

def name : HashOrder → String
  | display => "display"
  | internal => "internal"

def named : List (String × HashOrder) :=
  [display, internal].map fun o => (o.name, o)

end HashOrder

namespace Backend

def name : Backend → String
  | blockcypher => "blockcypher"
  | bitcoinCom => "bitcoin-com"

def named : List (String × Backend) :=
  [blockcypher, bitcoinCom].map fun b => (b.name, b)

end Backend

namespace Schema

/-- What stands for the address in a path. -/
def addressMark : String := "\x7baddress\x7d"

/-- Amounts in satoshis, lists of addresses, and transactions built by the backend. -/
def blockcypher (network : Network) : Schema where
  name := "blockcypher"
  baseUrl := match network with
    | .mainnet => "https://api.blockcypher.com/v1/btc/main"
    | .testnet => "https://api.blockcypher.com/v1/btc/test3"
  balance :=
    { path := "addrs/" ++ addressMark ++ "/balance"
      balance := "/balance"
      unit := .satoshis }
  unspent :=
    { path := "addrs/" ++ addressMark ++ "?unspentOnly=true&includeScript=true"
      list := "/txrefs"
      listOptional := true
      txid := "/tx_hash"
      index := "/tx_output_n"
      value := "/value"
      script := some "/script"
      unit := .satoshis
      hashOrder := .display }
  history :=
    { path := "addrs/" ++ addressMark ++ "/full?txlimit=100"
      list := "/txs"
      hash := "/hash"
      timestamp := "/received"
      confirmations := "/confirmations"
      inputs := "/inputs"
      inputAddresses := "/addresses"
      outputs := "/outputs"
      outputAddresses := "/addresses"
      outputValue := "/value"
      unit := .satoshis }
  broadcast :=
    { path := "txs/push"
      bodyField := "tx"
      txid := some "/tx/hash"
      errorField := "error" }
  twoPhase := some
    { newPath := "txs/new"
      sendPath := "txs/send"
      digests := "/tosign"
      fee := "/tx/fees"
      txid := "/tx/hash"
      errorField := "errors" }

/-- Amounts in coins, one address per input, and raw transactions only. -/
def bitcoinCom (network : Network) : Schema where
  name := "bitcoin.com"
  baseUrl := match network with
    | .mainnet => "https://rest.bitcoin.com/v2"
    | .testnet => "https://trest.bitcoin.com/v2"
  balance :=
    { path := "address/details/" ++ addressMark
      balance := "/balanceSat"
      unit := .satoshis }
  unspent :=
    { path := "address/utxo/" ++ addressMark
      list := "/utxos"
      listOptional := false
      txid := "/txid"
      index := "/vout"
      value := "/amount"
      script := none
      unit := .coins
      hashOrder := .display }
  history :=
    { path := "address/transactions/" ++ addressMark
      list := "/txs"
      hash := "/txid"
      timestamp := "/time"
      confirmations := "/confirmations"
      inputs := "/vin"
      inputAddresses := "/addr"
      outputs := "/vout"
      outputAddresses := "/scriptPubKey/addresses"
      outputValue := "/value"
      unit := .coins }
  broadcast :=
    { path := "rawtransactions/sendRawTransaction"
      bodyField := "tx"
      txid := none
      errorField := "error" }
  twoPhase := none

def ofBackend (backend : Backend) (network : Network) : Schema :=
  match backend with
  | .blockcypher => blockcypher network
  | .bitcoinCom => bitcoinCom network

/-- Replace the base URL, if there is another one. -/
def withBaseUrl (s : Schema) (baseUrl : Option String) : Schema :=
  { s with baseUrl := baseUrl.getD s.baseUrl }

def dropLeadingSlashes (s : String) : String :=
  String.ofList (s.toList.dropWhile (· == '/'))

def dropTrailingSlashes (s : String) : String :=
  String.ofList (s.toList.reverse.dropWhile (· == '/')).reverse

/-- The URL of a path below the base URL, with the address put into its place. -/
def url (s : Schema) (path address : String) : String :=
  dropTrailingSlashes s.baseUrl ++ "/" ++
    dropLeadingSlashes (path.replace addressMark address)

end Schema

end CashWallet
