import CashWallet.Number.Binary64

/-!
# JSON values

Values as they are read from a document: members of an object stand in the order of the document,
repeated keys included. A number without fraction and exponent is an integer as long as it fits in
64 bits, signed or not; every other number is a floating-point one.

A literal may be well formed and still stand for no value: a number beyond every floating-point
number, or a text with half of a surrogate pair. It is kept as `unreadable`, because a record may
be read from an object that has such a literal in a member nobody asks for.
-/

namespace CashWallet

namespace Json

inductive Number where
  | natural (n : UInt64)
  | negative (n : UInt64)
  | float (x : Binary64)
  deriving DecidableEq, Repr

end Json

inductive Json where
  | null
  | bool (b : Bool)
  | number (n : Json.Number)
  | string (s : String)
  | array (items : List Json)
  | object (members : List (String × Json))
  | unreadable
  deriving Repr, Inhabited

namespace Json

def ofUInt64 (n : UInt64) : Json := .number (.natural n)

def ofUInt32 (n : UInt32) : Json := .number (.natural n.toUInt64)

def isNull : Json → Bool
  | null => true
  | _ => false

def isObject : Json → Bool
  | object _ => true
  | _ => false

def string? : Json → Option String
  | string s => some s
  | _ => none

def array? : Json → Option (List Json)
  | array items => some items
  | _ => none

/-- A natural number of 64 bits, written as an integer. -/
def uint64? : Json → Option UInt64
  | number (.natural n) => some n
  | _ => none

/-- A natural number of 32 bits, written as an integer. -/
def uint32? : Json → Option UInt32
  | number (.natural n) => if n.toNat < UInt32.size then some (UInt32.ofNat n.toNat) else none
  | _ => none

/-- The floating-point number nearest to any number. -/
def binary64? : Json → Option Binary64
  | number (.natural n) => some (Binary64.ofRatio false n.toNat 1)
  | number (.negative n) => some (Binary64.ofRatio true n.toNat 1)
  | number (.float x) => some x
  | _ => none

mutual

/-- How many arrays and objects stand around the innermost value. -/
def depth : Json → Nat
  | array items => depthOfItems items + 1
  | object members => depthOfMembers members + 1
  | _ => 0

def depthOfItems : List Json → Nat
  | [] => 0
  | j :: rest => max (depth j) (depthOfItems rest)

def depthOfMembers : List (String × Json) → Nat
  | [] => 0
  | (_, j) :: rest => max (depth j) (depthOfMembers rest)

end

mutual

/-- Every literal stands for a value. -/
def readable : Json → Bool
  | array items => readableItems items
  | object members => readableMembers members
  | unreadable => false
  | _ => true

def readableItems : List Json → Bool
  | [] => true
  | j :: rest => readable j && readableItems rest

def readableMembers : List (String × Json) → Bool
  | [] => true
  | (_, j) :: rest => readable j && readableMembers rest

end

/-- Put a member in its place among members with increasing keys. A member with the same key makes
way. -/
def insertMember (key : String) (value : Json) :
    List (String × Json) → List (String × Json)
  | [] => [(key, value)]
  | (k, v) :: rest =>
    if key = k then (key, value) :: rest
    else if key < k then (key, value) :: (k, v) :: rest
    else (k, v) :: insertMember key value rest

mutual

/-- Every object has its keys in increasing order; of members with one key the last counts. -/
def canonical : Json → Json
  | array items => .array (canonicalItems items)
  | object members => .object (canonicalMembers [] members)
  | j => j

def canonicalItems : List Json → List Json
  | [] => []
  | j :: rest => canonical j :: canonicalItems rest

def canonicalMembers (done : List (String × Json)) :
    List (String × Json) → List (String × Json)
  | [] => done
  | (k, j) :: rest => canonicalMembers (insertMember k (canonical j) done) rest

end

/-- The greatest depth of a value. -/
def maxDepth : Nat := 127

/-- What a document says, where it is a value at all. -/
def toValue? (document : Json) : Option Json :=
  if document.readable && document.depth ≤ maxDepth then some document.canonical else none

end Json

end CashWallet
