import CashWallet.Bytes.Hex
import CashWallet.Text.Base58

/-!
# Faults of encoded values

Why a key, a signature, a hash or a piece of wire data does not decode.
-/

namespace CashWallet

inductive CodecError where
  | privateKeyLength (length : Nat)
  | privateKeyRange
  | publicKeyLength (length : Nat)
  | publicKeyForm
  | signatureForm
  | wifText (fault : Base58.Fault)
  | wifLength (length : Nat)
  | wifFlag
  | checksumMismatch
  | hexText (fault : Hex.Fault)
  | hashLength (length : Nat)
  | txidLength (text : String) (length : Nat)
  | endOfData (wanted remaining : Nat)
  deriving DecidableEq, Repr

namespace CodecError

/-- The name of the kind of fault. -/
def kind : CodecError → String
  | privateKeyLength _ => "InvalidPrivateKey"
  | privateKeyRange => "InvalidPrivateKey"
  | publicKeyLength _ => "InvalidPublicKey"
  | publicKeyForm => "InvalidPublicKey"
  | signatureForm => "InvalidSignature"
  | wifText _ => "InvalidWif"
  | wifLength _ => "InvalidWif"
  | wifFlag => "InvalidWif"
  | checksumMismatch => "ChecksumMismatch"
  | hexText _ => "InvalidHex"
  | hashLength _ => "InvalidHash"
  | txidLength _ _ => "InvalidHash"
  | endOfData _ _ => "UnexpectedEof"

def message : CodecError → String
  | privateKeyLength n =>
    "invalid private key: expected 32 bytes, got " ++ toString n
  | privateKeyRange => "invalid private key: signature error"
  | publicKeyLength n => "invalid public key: unexpected key length " ++ toString n
  | publicKeyForm => "invalid public key: signature error"
  | signatureForm => "invalid signature: signature error"
  | wifText fault => "invalid WIF format: " ++ fault.message
  | wifLength n => "invalid WIF format: invalid payload length " ++ toString n
  | wifFlag => "invalid WIF format: invalid compression flag"
  | checksumMismatch => "checksum mismatch"
  | hexText fault => "invalid hex: " ++ fault.message
  | hashLength n => "invalid hash: invalid hash length of " ++ toString n ++ ", want 32"
  | txidLength text n =>
    "invalid hash: txid '" ++ text ++ "' decodes to " ++ toString n ++ " bytes, want 32"
  | endOfData wanted remaining =>
    "unexpected end of data: wanted " ++ toString wanted ++ " bytes, " ++ toString remaining ++
      " remaining"

end CodecError

end CashWallet
