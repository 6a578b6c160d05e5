import CashWallet.Bytes.Endian
import CashWallet.Script.Error
import CashWallet.Script.Opcode

/-!
# Script chunks

A script is a sequence of opcodes, some with data behind them. A push names the length of its data
in the opcode itself or in one, two or four little-endian bytes behind it.
-/

namespace CashWallet

/-- An opcode with the data it pushes, if it is a data push. -/
structure Chunk where
  opcode : UInt8
  data : Option Bytes
  deriving DecidableEq, Repr

namespace Chunk

/-- How a data push tells the length of its data. -/
inductive LengthForm where
  | direct (length : Nat)
  | counted (width : Nat)
  deriving DecidableEq, Repr

/-- The length form of a data push; `none` for any other opcode. -/
def lengthForm? (op : UInt8) : Option LengthForm :=
  if 1 ≤ op ∧ op ≤ Opcode.maxDirectPush then some (.direct op.toNat)
  else if op = Opcode.pushData1 then some (.counted 1)
  else if op = Opcode.pushData2 then some (.counted 2)
  else if op = Opcode.pushData4 then some (.counted 4)
  else none

/-- The length of the data, and how many bytes of the script tell it. -/
def LengthForm.read? (form : LengthForm) (bs : Bytes) : Option (Nat × Nat) :=
  match form with
  | .direct length => some (length, 0)
  | .counted width =>
    let digits := bs.take width
    if digits.length < width then none else some (Endian.ofLittle digits, width)

/-- The first chunk of a script that is not empty, and the rest of the script. -/
def read (op : UInt8) (bs : Bytes) : Except ScriptError (Chunk × Bytes) :=
  match lengthForm? op with
  | none => .ok (⟨op, none⟩, bs)
  | some form =>
    match form.read? bs with
    | none => .error .endOfScript
    | some (length, width) =>
      let rest := bs.drop width
      let data := rest.take length
      if data.length < length then .error .endOfScript
      else .ok (⟨op, some data⟩, rest.drop length)

theorem length_read {op : UInt8} {bs rest : Bytes} {chunk : Chunk}
    (h : read op bs = .ok (chunk, rest)) : rest.length ≤ bs.length := by
  unfold read at h
  split at h
  · cases h; exact Nat.le_refl _
  · split at h
    · cases h
    · simp only at h
      split at h
      · cases h
      · cases h; simp

/-- Write a chunk as it was read. -/
def encode (chunk : Chunk) : Bytes :=
  match chunk.data, lengthForm? chunk.opcode with
  | some data, some (.counted width) =>
    chunk.opcode :: Endian.toLittle width data.length ++ data
  | some data, _ => chunk.opcode :: data
  | none, _ => [chunk.opcode]

/-- The chunks of a script, in order. -/
def decodeAll (script : Bytes) : Except ScriptError (List Chunk) :=
  match script with
  | [] => .ok []
  | op :: bs =>
    match _step : read op bs with
    | .error e => .error e
    | .ok (chunk, rest) =>
      match decodeAll rest with
      | .error e => .error e
      | .ok chunks => .ok (chunk :: chunks)
  termination_by script.length
  decreasing_by
    have := length_read _step
    simp only [List.length_cons]
    omega

/-- The opcode and the length bytes of the shortest push of `length` bytes. -/
def pushHeader (length : Nat) : Except ScriptError Bytes :=
  if length ≤ 0x4b then .ok [UInt8.ofNat length]
  else if length ≤ 0xff then .ok [Opcode.pushData1, UInt8.ofNat length]
  else if length ≤ 0xffff then .ok (Opcode.pushData2 :: Endian.toLittle 2 length)
  else if length ≤ 0xffffffff then .ok (Opcode.pushData4 :: Endian.toLittle 4 length)
  else .error .dataTooBig

end Chunk

end CashWallet
