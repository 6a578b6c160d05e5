import CashWallet.Codec.Error
import CashWallet.Hash.Digest
import CashWallet.Json.Record
import CashWallet.Text.Whitespace

/-!
# Transaction ids

A digest of 32 bytes in the order of the wire. Explorers display it byte-reversed, so the display
form is the hexadecimal text of the reverse.
-/

namespace CashWallet

structure TxId where
  bytes : Bytes
  length_bytes : bytes.length = 32
  deriving DecidableEq, Repr

namespace TxId

def zero : TxId := ⟨List.replicate 32 0, by simp⟩

instance : Inhabited TxId := ⟨zero⟩

/-- From 32 bytes in wire order. -/
def ofBytes (bs : Bytes) : Except CodecError TxId :=
  if h : bs.length = 32 then .ok ⟨bs, h⟩ else .error (.hashLength bs.length)

/-- The id of some wire data. -/
def ofData (data : Bytes) : TxId :=
  ⟨Hash.sha256d data, Hash.length_sha256d data⟩

def reversed (id : TxId) : TxId :=
  ⟨id.bytes.reverse, by simp [id.length_bytes]⟩

/-- From the display form, with blank space around it. -/
def ofHex (text : String) : Except CodecError TxId :=
  match Hex.decode (Text.trim text) with
  | .error fault => .error (.hexText fault)
  | .ok bs =>
    if h : bs.length = 32 then .ok ⟨bs.reverse, by simp [h]⟩
    else .error (.txidLength text bs.length)

/-- From hexadecimal text in wire order, with blank space around it. -/
def ofInternalHex (text : String) : Except CodecError TxId :=
  match Hex.decode (Text.trim text) with
  | .error fault => .error (.hexText fault)
  | .ok bs => ofBytes bs

/-- The display form. -/
def toHex (id : TxId) : String :=
  Hex.encode id.bytes.reverse

/-- Hexadecimal text in wire order. -/
def toInternalHex (id : TxId) : String :=
  Hex.encode id.bytes

def toJson (id : TxId) : Json := .string id.toHex

def ofJson? (j : Json) : Option TxId :=
  j.string?.bind fun text => (ofHex text).toOption

@[simp] theorem reversed_reversed (id : TxId) : id.reversed.reversed = id := by
  simp [reversed]

end TxId

end CashWallet
