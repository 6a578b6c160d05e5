import CashWallet.Json.Record
import CashWallet.Script.Chunk

/-!
# Scripts

Raw script bytes, the payment form that locks an output to a key hash, and push-only scripts.
-/

namespace CashWallet

structure Script where
  bytes : Bytes
  deriving DecidableEq, Repr, Inhabited

namespace Script

def empty : Script := ⟨[]⟩

def ofHex (text : String) : Except ScriptError Script :=
  match Hex.decode text with
  | .ok bs => .ok ⟨bs⟩
  | .error fault => .error (.hexText fault)

def toHex (s : Script) : String :=
  Hex.encode s.bytes

/-- The script that pays to a key hash: duplicate and hash the key on the stack, compare the hash,
check the signature. -/
def payToKeyHash (keyHash : Bytes) : Script :=
  ⟨[Opcode.duplicate, Opcode.hash160, 20] ++ keyHash ++ [Opcode.equalVerify, Opcode.checkSig]⟩

/-- Has the form of a payment to a key hash. -/
def isPayToKeyHash (s : Script) : Bool :=
  s.bytes.length == 25 &&
    s.bytes.take 3 == [Opcode.duplicate, Opcode.hash160, 20] &&
    s.bytes.drop 23 == [Opcode.equalVerify, Opcode.checkSig]

/-- The key hash that a payment is locked to. -/
def keyHash (s : Script) : Except ScriptError Bytes :=
  if s.isPayToKeyHash then .ok ((s.bytes.drop 3).take 20) else .error .notPayToKeyHash

def chunks (s : Script) : Except ScriptError (List Chunk) :=
  Chunk.decodeAll s.bytes

/-- What a chunk of a push-only script pushes, as far as it is data. -/
def pushedBy (chunk : Chunk) : Except ScriptError Bytes :=
  if Opcode.isPushOnly chunk.opcode then .ok (chunk.data.getD [])
  else .error (.notPush chunk.opcode)

/-- The data of a push-only script, in order. -/
def pushes (s : Script) : Except ScriptError (List Bytes) := do
  (← s.chunks).mapM pushedBy

/-- Append the shortest push of some data. -/
def appendPush (s : Script) (data : Bytes) : Except ScriptError Script := do
  let header ← Chunk.pushHeader data.length
  return ⟨s.bytes ++ header ++ data⟩

def appendOpcodes (s : Script) (opcodes : Bytes) : Script :=
  ⟨s.bytes ++ opcodes⟩

def describe (s : Script) : String :=
  "Script(" ++ s.toHex ++ ")"

def toJson (s : Script) : Json := .string s.toHex

def ofJson? (j : Json) : Option Script :=
  j.string?.bind fun text => (ofHex text).toOption

end Script

end CashWallet
