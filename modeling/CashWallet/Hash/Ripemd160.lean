import CashWallet.Hash.Block

/-!
# RIPEMD-160

Two lines of eighty steps run over the same block, with their own orders of the words, rotations,
constants and Boolean functions; their results are combined into the next state.
-/

namespace CashWallet.Ripemd160

open CashWallet.Hash

structure State where
  a : UInt32
  b : UInt32
  c : UInt32
  d : UInt32
  e : UInt32
  deriving DecidableEq, Repr

def State.initial : State :=
  ⟨0x67452301, 0xefcdab89, 0x98badcfe, 0x10325476, 0xc3d2e1f0⟩

def State.words (s : State) : List UInt32 :=
  [s.a, s.b, s.c, s.d, s.e]

/-- The word read and the rotation made in each step of the left line. -/
def leftSteps : List (Nat × UInt32) :=
  [(0, 11), (1, 14), (2, 15), (3, 12), (4, 5), (5, 8), (6, 7), (7, 9),
   (8, 11), (9, 13), (10, 14), (11, 15), (12, 6), (13, 7), (14, 9), (15, 8),
   (7, 7), (4, 6), (13, 8), (1, 13), (10, 11), (6, 9), (15, 7), (3, 15),
   (12, 7), (0, 12), (9, 15), (5, 9), (2, 11), (14, 7), (11, 13), (8, 12),
   (3, 11), (10, 13), (14, 6), (4, 7), (9, 14), (15, 9), (8, 13), (1, 15),
   (2, 14), (7, 8), (0, 13), (6, 6), (13, 5), (11, 12), (5, 7), (12, 5),
   (1, 11), (9, 12), (11, 14), (10, 15), (0, 14), (8, 15), (12, 9), (4, 8),
   (13, 9), (3, 14), (7, 5), (15, 6), (14, 8), (5, 6), (6, 5), (2, 12),
   (4, 9), (0, 15), (5, 5), (9, 11), (7, 6), (12, 8), (2, 13), (10, 12),
   (14, 5), (1, 12), (3, 13), (8, 14), (11, 11), (6, 8), (15, 5), (13, 6)]

/-- The word read and the rotation made in each step of the right line. -/
def rightSteps : List (Nat × UInt32) :=
  [(5, 8), (14, 9), (7, 9), (0, 11), (9, 13), (2, 15), (11, 15), (4, 5),
   (13, 7), (6, 7), (15, 8), (8, 11), (1, 14), (10, 14), (3, 12), (12, 6),
   (6, 9), (11, 13), (3, 15), (7, 7), (0, 12), (13, 8), (5, 9), (10, 11),
   (14, 7), (15, 7), (8, 12), (12, 7), (4, 6), (9, 15), (1, 13), (2, 11),
   (15, 9), (5, 7), (1, 15), (3, 11), (7, 8), (14, 6), (6, 6), (9, 14),
   (11, 12), (8, 13), (12, 5), (2, 14), (10, 13), (0, 13), (4, 7), (13, 5),
   (8, 15), (6, 5), (4, 8), (1, 11), (3, 14), (11, 14), (15, 6), (0, 14),
   (5, 6), (12, 9), (2, 12), (13, 9), (9, 12), (7, 5), (10, 15), (14, 8),
   (12, 8), (15, 5), (10, 12), (4, 9), (1, 12), (5, 5), (8, 14), (7, 6),
   (6, 8), (2, 13), (13, 6), (14, 5), (0, 15), (3, 13), (9, 11), (11, 11)]

/-- The Boolean function of a group of sixteen steps. -/
def mix (group : Nat) (x y z : UInt32) : UInt32 :=
  match group with
  | 0 => x ^^^ y ^^^ z
  | 1 => (x &&& y) ||| (~~~x &&& z)
  | 2 => (x ||| ~~~y) ^^^ z
  | 3 => (x &&& z) ||| (y &&& ~~~z)
  | _ => x ^^^ (y ||| ~~~z)

def leftConstants : List UInt32 :=
  [0, 0x5a827999, 0x6ed9eba1, 0x8f1bbcdc, 0xa953fd4e]

def rightConstants : List UInt32 :=
  [0x50a28be6, 0x5c4dd124, 0x6d703ef3, 0x7a6d76e9, 0]

/-- One step: `mixed` is the value of the Boolean function, `added` the word and the constant. -/
def step (s : State) (mixed added rotation : UInt32) : State :=
  ⟨s.e, rotl (s.a + mixed + added) rotation + s.e, s.b, rotl s.c 10, s.d⟩

/-- Run one line; `functionOf` gives the Boolean function of a group of steps. -/
def runLine (functionOf : Nat → Nat) (constants : List UInt32) (steps : List (Nat × UInt32))
    (block : Array UInt32) (s : State) : State :=
  (steps.zipIdx).foldl (fun acc entry =>
    let group := entry.2 / 16
    let added := block.getD entry.1.1 0 + constants.getD group 0
    step acc (mix (functionOf group) acc.b acc.c acc.d) added entry.1.2) s

def compress (s : State) (block : Bytes) : State :=
  let w := (words littleWord block).toArray
  let l := runLine (fun group => group) leftConstants leftSteps w s
  let r := runLine (fun group => 4 - group) rightConstants rightSteps w s
  ⟨s.b + l.c + r.d, s.c + l.d + r.e, s.d + l.e + r.a, s.e + l.a + r.b, s.a + l.b + r.c⟩

/-- The 20-byte digest of a message. -/
def hash (message : Bytes) : Bytes :=
  let final := (blocks (padded (Endian.toLittle 8) message)).foldl compress State.initial
  final.words.flatMap fun w => Endian.toLittle 4 w.toNat

@[simp] theorem length_hash (message : Bytes) : (hash message).length = 20 := by
  simp [hash, State.words]

end CashWallet.Ripemd160
