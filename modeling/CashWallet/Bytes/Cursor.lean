import CashWallet.Bytes.Field

/-!
# Reading in place

The bytes stay where they are and a position moves over them. Positions and lengths are numbers of
64 bits: every sum and every difference of them is checked, and so are the places of every slice. A
run that would leave the numbers or the bytes stops in a way of its own.
-/

namespace CashWallet

/-- Why a run stops. -/
inductive Stop (ε : Type) where
  | fault (fault : ε)
  /-- A sum beyond 64 bits, or a difference below zero. -/
  | overflow
  /-- Places that the bytes do not have. -/
  | outOfRange
  deriving DecidableEq, Repr

def Stop.map (f : ε → ε') : Stop ε → Stop ε'
  | fault e => fault (f e)
  | overflow => overflow
  | outOfRange => outOfRange

/-- A position in bytes. -/
structure Cursor where
  data : Bytes
  position : Nat
  deriving DecidableEq, Repr

/-- Steps over a state that may stop. The state stays as they left it. -/
abbrev Walk (σ ε : Type) := ExceptT (Stop ε) (StateM σ)

namespace Walk

/-- What comes of a walk from a state, and the state in which it ends. -/
def run (w : Walk σ ε α) (s : σ) : Except (Stop ε) α × σ :=
  StateT.run (ExceptT.run w) s

@[simp] theorem run_pure (a : α) (s : σ) : run (pure a : Walk σ ε α) s = (.ok a, s) := rfl

@[simp] theorem run_get (s : σ) : run (get : Walk σ ε σ) s = (.ok s, s) := rfl

@[simp] theorem run_modify (f : σ → σ) (s : σ) : run (modify f : Walk σ ε Unit) s = (.ok (), f s) :=
  rfl

theorem run_bind (w : Walk σ ε α) (f : α → Walk σ ε β) (s : σ) :
    run (w >>= f) s =
      match run w s with
      | (.ok a, s') => run (f a) s'
      | (.error e, s') => (.error e, s') := by
  change (match run w s with | (result, s') => (ExceptT.bindCont f result).run s') = _
  cases run w s with
  | mk result s' => cases result <;> rfl

/-- Change the faults of a walk. -/
def mapFault (f : ε → ε') (w : Walk σ ε α) : Walk σ ε' α :=
  ExceptT.adapt (Stop.map f) w

theorem run_mapFault (f : ε → ε') (w : Walk σ ε α) (s : σ) :
    run (mapFault f w) s = ((run w s).1.mapError (Stop.map f), (run w s).2) := rfl

/-- The sum of two lengths. -/
def sum (a b : Nat) : Walk σ ε Nat :=
  if a + b < UInt64.size then pure (a + b) else throw .overflow

/-- The difference of two lengths. -/
def difference (a b : Nat) : Walk σ ε Nat :=
  if b ≤ a then pure (a - b) else throw .overflow

/-- The bytes from one place up to another. -/
def slice (first behind : Nat) : Walk Cursor ε Bytes := do
  let c ← get
  if first ≤ behind ∧ behind ≤ c.data.length then pure (c.data.extract first behind)
  else throw .outOfRange

/-- How many bytes are unread. -/
def remaining : Walk Cursor ε Nat := do
  let c ← get
  difference c.data.length c.position

/-- Take exactly `n` bytes. -/
def bytes (n : Nat) : Walk Cursor CodecError Bytes := do
  let left ← remaining
  if left < n then throw (.fault (.endOfData n left))
  else do
    let c ← get
    let behind ← sum c.position n
    let taken ← slice c.position behind
    modify fun c => { c with position := behind }
    pure taken

/-- A little-endian number of a fixed width. -/
def little (width : Nat) : Walk Cursor CodecError Nat :=
  (fun bs => Endian.ofLittle bs) <$> bytes width

def u8 : Walk Cursor CodecError UInt8 := UInt8.ofNat <$> little 1

def u16 : Walk Cursor CodecError UInt16 := UInt16.ofNat <$> little 2

def u32 : Walk Cursor CodecError UInt32 := UInt32.ofNat <$> little 4

def u64 : Walk Cursor CodecError UInt64 := UInt64.ofNat <$> little 8

/-- A compact-size integer in any of its four forms. -/
def compactSize : Walk Cursor CodecError UInt64 := do
  let marker ← u8
  if marker = 0xff then u64
  else if marker = 0xfe then UInt32.toUInt64 <$> u32
  else if marker = 0xfd then UInt16.toUInt64 <$> u16
  else pure marker.toUInt64

/-- Bytes behind their count. -/
def varBytes : Walk Cursor CodecError Bytes := do
  let count ← compactSize
  bytes count.toNat

end Walk

def FieldKind.walk : FieldKind → Walk Cursor CodecError Field
  | .u8 => Field.u8 <$> Walk.u8
  | .u16 => Field.u16 <$> Walk.u16
  | .u32 => Field.u32 <$> Walk.u32
  | .u64 => Field.u64 <$> Walk.u64
  | .compactSize => Field.compactSize <$> Walk.compactSize
  | .varBytes => Field.varBytes <$> Walk.varBytes
  | .bytes n => Field.bytes <$> Walk.bytes n

namespace Cursor

/-- In front of the first byte. -/
def start (data : Bytes) : Cursor := ⟨data, 0⟩

def unread (c : Cursor) : Bytes := c.data.drop c.position

/-- What came of one read, and the cursor that it left. -/
abbrev Entry := Except (Stop CodecError) Field × Cursor

/-- Read one field after the other, going on after a failure. -/
def readAll : List FieldKind → Cursor → List Entry
  | [], _ => []
  | kind :: kinds, c =>
    let step := kind.walk.run c
    step :: readAll kinds step.2

/-- The cursor that is left by reads, failed or not. -/
def after (c : Cursor) (kinds : List FieldKind) : Cursor :=
  kinds.foldl (fun c kind => (kind.walk.run c).2) c

end Cursor

end CashWallet
