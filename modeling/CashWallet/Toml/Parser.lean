import CashWallet.Toml.Scalar

/-!
# Reading TOML documents

A document is a sequence of lines: a pair of a key and a value, the header of a table, the header
of one table among several, or nothing but a comment. Arrays go over several lines, inline tables do
not. Recursion is bounded by the length of the text, and values may be nested only so deep.
-/

namespace CashWallet.Toml

/-- One more than the depth to which values may be nested and than the parts a key may have. -/
def depthLimit : Nat := 80

/-! ## Keys -/

def isBare (c : Char) : Bool :=
  c.isAlphanum || c == '-' || c == '_'

/-- One part of a key: bare, or in quotes on one line. -/
def keyPart? (cs : List Char) : Option (String × List Char) :=
  match cs with
  | '"' :: rest => (basicText (rest.length + 1) rest).map fun found =>
      (String.ofList found.1, found.2)
  | '\'' :: rest => (literalText rest).map fun found => (String.ofList found.1, found.2)
  | _ =>
    let part := cs.takeWhile isBare
    if part.isEmpty then none else some (String.ofList part, cs.dropWhile isBare)

/-- The parts of a key, parted by points. -/
def keyParts (fuel : Nat) (cs : List Char) : Option (List String × List Char) :=
  match fuel with
  | 0 => none
  | fuel + 1 => do
    let (part, rest) ← keyPart? (skipBlank cs)
    match skipBlank rest with
    | '.' :: rest =>
      let (more, rest) ← keyParts fuel rest
      return (part :: more, rest)
    | rest => return ([part], rest)

def key? (cs : List Char) : Option (List String × List Char) :=
  (keyParts (cs.length + 1) cs).filter fun found => found.1.length < depthLimit

def Pair.of (path : List String) (value : Toml) : Pair :=
  ⟨path.dropLast, path.getLastD "", value⟩

/-! ## Values -/

/-- Drop blank space, the ends of lines, and comments up to the end of their line. -/
def skipTrivia (comment : Bool) : List Char → List Char
  | '\n' :: rest => skipTrivia false rest
  | '\r' :: '\n' :: rest => skipTrivia false rest
  | c :: rest =>
    if comment then if isPlain c then skipTrivia true rest else c :: rest
    else if c == '#' then skipTrivia true rest
    else if isBlank c then skipTrivia false rest
    else c :: rest
  | [] => []

mutual

/-- A value. It may hold others that are nested less deep than `room`. -/
def value (fuel room : Nat) (cs : List Char) : Option (Toml × List Char) :=
  match fuel with
  | 0 => none
  | fuel + 1 =>
    match cs with
    | 't' :: 'r' :: 'u' :: 'e' :: rest => some (.bool true, rest)
    | 'f' :: 'a' :: 'l' :: 's' :: 'e' :: rest => some (.bool false, rest)
    | '[' :: rest =>
      match room with
      | 0 => none
      | room + 1 => (items fuel room rest).map fun found => (.array found.1, found.2)
    | '{' :: rest =>
      match room with
      | 0 => none
      | room + 1 => do
        let (pairs, rest) ← match skipBlank rest with
          | '}' :: rest => some ([], rest)
          | rest => inlinePairs fuel room rest
        return (.table .inline (← addPairs pairs []), rest)
    | cs =>
      ((text? cs).map fun found => (.string found.1, found.2)).or
        ((moment? cs).or (number? cs))

/-- The items of an array up to its bracket, with a comma behind each but the last, or each. -/
def items (fuel room : Nat) (cs : List Char) : Option (List Toml × List Char) :=
  match fuel with
  | 0 => none
  | fuel + 1 =>
    match skipTrivia false cs with
    | ']' :: rest => some ([], rest)
    | rest => do
      let (v, rest) ← value fuel room rest
      match skipTrivia false rest with
      | ']' :: rest => return ([v], rest)
      | ',' :: rest =>
        let (more, rest) ← items fuel room rest
        return (v :: more, rest)
      | _ => none

/-- The pairs of an inline table up to its brace, parted by commas. -/
def inlinePairs (fuel room : Nat) (cs : List Char) : Option (List Pair × List Char) :=
  match fuel with
  | 0 => none
  | fuel + 1 => do
    let (path, rest) ← key? cs
    let (_, rest) ← mark? '=' rest
    let (v, rest) ← value fuel room (skipBlank rest)
    match skipBlank rest with
    | '}' :: rest => return ([.of path v], rest)
    | ',' :: rest =>
      let (more, rest) ← inlinePairs fuel room rest
      return (.of path v :: more, rest)
    | _ => none

end

/-! ## Lines -/

inductive Statement where
  | pair (p : Pair)
  | table (path : List String)
  /-- One table among several. -/
  | row (path : List String)

/-- What is behind a comment. -/
def skipComment (cs : List Char) : List Char :=
  match cs with
  | '#' :: rest => rest.dropWhile isPlain
  | _ => cs

/-- The rest of a line that holds nothing more: blank space and a comment. -/
def lineEnd? (cs : List Char) : Option (List Char) :=
  match skipComment (skipBlank cs) with
  | [] => some []
  | rest => newline? rest

/-- A key between brackets. -/
def header? (closing : List Char) (cs : List Char) : Option (List String × List Char) := do
  let (path, rest) ← key? cs
  if closing.isPrefixOf rest then return (path, rest.drop closing.length) else none

/-- One line that is not blank. -/
def statement? (cs : List Char) : Option (Statement × List Char) := do
  let (s, rest) ← match cs with
    | '[' :: '[' :: rest => (header? [']', ']'] rest).map fun found => (.row found.1, found.2)
    | '[' :: rest => (header? [']'] rest).map fun found => (.table found.1, found.2)
    | cs => do
      let (path, rest) ← key? cs
      let (_, rest) ← mark? '=' rest
      let rest := skipBlank rest
      let (v, rest) ← value (2 * rest.length + 2) (depthLimit - 1) rest
      some (Statement.pair (.of path v), rest)
  return (s, ← lineEnd? rest)

/-- All lines. -/
def statements (fuel : Nat) (cs : List Char) : Option (List Statement) :=
  match fuel with
  | 0 => none
  | fuel + 1 =>
    match lineEnd? cs with
    | some [] => some []
    | some rest => statements fuel rest
    | none => do
      let (s, rest) ← statement? (skipBlank cs)
      return s :: (← statements fuel rest)

end CashWallet.Toml
