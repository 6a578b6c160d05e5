import CashWallet.Key.Private
import CashWallet.Script.Basic

/-!
# Addresses

A key hash on a network, written in base 58 behind a version byte and with a checksum. An address
keeps the text it was read from, and two addresses are equal when their texts are.
-/

namespace CashWallet

inductive Network where
  | mainnet
  | testnet
  deriving DecidableEq, Repr, Inhabited

namespace Network

/-- The version byte of addresses. -/
def addressVersion : Network → UInt8
  | mainnet => 0x00
  | testnet => 0x6f

/-- The version byte of exported private keys. -/
def wifPrefix : Network → UInt8
  | mainnet => PrivateKey.mainnetPrefix
  | testnet => PrivateKey.testnetPrefix

def ofVersion? (version : UInt8) : Option Network :=
  if version = addressVersion .mainnet then some .mainnet
  else if version = addressVersion .testnet then some .testnet
  else none

def name : Network → String
  | mainnet => "mainnet"
  | testnet => "testnet"

def named : List (String × Network) :=
  [mainnet, testnet].map fun n => (n.name, n)

end Network

structure Address where
  text : String
  keyHash : Bytes
  network : Network
  length_keyHash : keyHash.length = 20

namespace Address

instance : BEq Address where
  beq a b := a.text == b.text

/-- The decoded form of an address, without its checksum. -/
def payload (keyHash : Bytes) (network : Network) : Bytes :=
  network.addressVersion :: keyHash

def encode (keyHash : Bytes) (network : Network) : String :=
  let body := payload keyHash network
  Base58.encode (body ++ Hash.checksum body)

def ofKeyHash (keyHash : Bytes) (network : Network) (h : keyHash.length = 20) : Address :=
  ⟨encode keyHash network, keyHash, network, h⟩

/-- The address that a public key controls, in the form that the key is written in. -/
def ofPublicKey (key : PublicKey) (network : Network) : Address :=
  ofKeyHash key.hash160 network (by simp)

def ofString (text : String) : Except ScriptError Address :=
  match Base58.decode text with
  | .error fault => .error (.addressText text fault)
  | .ok decoded =>
    if h : decoded.length = 25 then
      if decoded.drop 21 = Hash.checksum (decoded.take 21) then
        let version := decoded.headD 0
        match Network.ofVersion? version with
        | some network => .ok ⟨text, (decoded.drop 1).take 20, network, by simp [h]⟩
        | none => .error (.addressVersion text version)
      else .error .addressChecksum
    else .error (.addressLength text)

/-- The script that pays to an address. -/
def lock (a : Address) : Script :=
  .payToKeyHash a.keyHash

def toJson (a : Address) : Json := .string a.text

def ofJson? (j : Json) : Option Address :=
  j.string?.bind fun text => (ofString text).toOption

end Address

end CashWallet
