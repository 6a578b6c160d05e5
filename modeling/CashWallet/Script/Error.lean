import CashWallet.Codec.Error

/-!
# Faults of scripts and addresses
-/

namespace CashWallet

inductive ScriptError where
  | notPush (opcode : UInt8)
  | endOfScript
  | dataTooBig
  | notPayToKeyHash
  | addressText (text : String) (fault : Base58.Fault)
  | addressLength (text : String)
  | addressVersion (text : String) (version : UInt8)
  | addressChecksum
  | hexText (fault : Hex.Fault)
  | codec (fault : CodecError)
  deriving DecidableEq, Repr

namespace ScriptError

/-- A byte in two hexadecimal digits. -/
def byteLiteral (b : UInt8) : String :=
  "0x" ++ Hex.encode [b]

/-- The name of the kind of fault. -/
def kind : ScriptError → String
  | notPush _ => "InvalidScript"
  | endOfScript => "DataTooSmall"
  | dataTooBig => "DataTooBig"
  | notPayToKeyHash => "NotP2PKH"
  | addressText _ _ => "InvalidAddress"
  | addressLength _ => "InvalidAddressLength"
  | addressVersion _ _ => "UnsupportedAddress"
  | addressChecksum => "EncodingChecksumFailed"
  | hexText _ => "HexDecode"
  | codec fault => "Primitives." ++ fault.kind

def message : ScriptError → String
  | notPush opcode => "invalid script: opcode " ++ byteLiteral opcode ++ " in push-only script"
  | endOfScript => "not enough data"
  | dataTooBig => "data too big"
  | notPayToKeyHash => "not a P2PKH"
  | addressText text fault => "invalid address: '" ++ text ++ "': " ++ fault.message
  | addressLength text => "invalid address length for '" ++ text ++ "'"
  | addressVersion text version =>
    "address version " ++ byteLiteral version ++ " not supported for '" ++ text ++ "'"
  | addressChecksum => "checksum failed"
  | hexText fault => "hex decode error: " ++ fault.message
  | codec fault => "primitives error: " ++ fault.message

end ScriptError

end CashWallet
