import CashWallet.Script.Chunk

/-!
# Scripts read in place

The chunks of a script, cut out of it by a position that moves from its first byte to its end. Bytes
are taken by their places, and a place that the script does not have ends the scan with a stop of
its own.
-/

namespace CashWallet.Scan

open Chunk (LengthForm lengthForm?)

/-- Why a scan does not reach the end of the script. -/
inductive Stop where
  | fault (fault : ScriptError)
  | outOfRange
  deriving DecidableEq, Repr

/-- The bytes from one place up to another, if the script has these places in this order. -/
def slice? (script : Bytes) (first behind : Nat) : Option Bytes :=
  if first ≤ behind ∧ behind ≤ script.length then some ((script.take behind).drop first) else none

/-- The length of the data of a push whose opcode stands before the position, and how many bytes
tell it. Bytes that are missing are a fault of the script. -/
def lengthAt (form : LengthForm) (script : Bytes) (position : Nat) : Except Stop (Nat × Nat) :=
  match form with
  | .direct length => .ok (length, 0)
  | .counted width =>
    match slice? script position (position + width) with
    | some digits => .ok (Endian.ofLittle digits, width)
    | none => .error (.fault .endOfScript)

/-- The data that ends a push, and the position behind it. -/
def dataAt (op : UInt8) (script : Bytes) (first length : Nat) : Except Stop (Chunk × Nat) :=
  if script.length < first + length then .error (.fault .endOfScript)
  else
    match slice? script first (first + length) with
    | some data => .ok (⟨op, some data⟩, first + length)
    | none => .error .outOfRange

/-- The chunk at a position, and the position behind it. -/
def chunkAt (script : Bytes) (position : Nat) : Except Stop (Chunk × Nat) :=
  match script[position]? with
  | none => .error .outOfRange
  | some op =>
    match lengthForm? op with
    | none => .ok (⟨op, none⟩, position + 1)
    | some form =>
      match lengthAt form script (position + 1) with
      | .error stop => .error stop
      | .ok (length, width) => dataAt op script (position + 1 + width) length

theorem le_of_dataAt {op : UInt8} {script : Bytes} {first length next : Nat} {chunk : Chunk}
    (h : dataAt op script first length = .ok (chunk, next)) : first ≤ next := by
  unfold dataAt at h
  split at h
  · cases h
  · split at h
    · cases h
      exact Nat.le_add_right first length
    · cases h

/-- The position moves on with each chunk. -/
theorem lt_of_chunkAt {script : Bytes} {position next : Nat} {chunk : Chunk}
    (h : chunkAt script position = .ok (chunk, next)) : position < next := by
  unfold chunkAt at h
  split at h
  · cases h
  · split at h
    · cases h
      exact Nat.lt_succ_self position
    · split at h
      · cases h
      · have hle := le_of_dataAt h
        omega

/-- The chunks from a position to the end of the script. -/
def chunksFrom (script : Bytes) (position : Nat) : Except Stop (List Chunk) :=
  if _inside : position < script.length then
    match _step : chunkAt script position with
    | .error stop => .error stop
    | .ok (chunk, next) =>
      match chunksFrom script next with
      | .error stop => .error stop
      | .ok chunks => .ok (chunk :: chunks)
  else .ok []
  termination_by script.length - position
  decreasing_by
    have := lt_of_chunkAt _step
    omega

/-- The chunks of a script. -/
def chunks (script : Bytes) : Except Stop (List Chunk) :=
  chunksFrom script 0

end CashWallet.Scan
