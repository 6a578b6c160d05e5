import CashWallet.Json.Literal

/-!
# Reading JSON documents

A strict reading of RFC 8259: no leading zeros, no trailing commas, no comments, and nothing but
blank space around the value. Recursion is bounded by the length of the text, since every step
takes a character.
-/

namespace CashWallet.Json

def isSpace (c : Char) : Bool :=
  c == ' ' || c == '\n' || c == '\t' || c == '\r'

def skipSpace (cs : List Char) : List Char :=
  cs.dropWhile isSpace

def hexValue? (c : Char) : Option Nat :=
  if c.isDigit then some (c.toNat - 48)
  else if 'a' ≤ c ∧ c ≤ 'f' then some (c.toNat - 87)
  else if 'A' ≤ c ∧ c ≤ 'F' then some (c.toNat - 55)
  else none

def codeUnit? (a b c d : Char) : Option Nat := do
  let a ← hexValue? a
  let b ← hexValue? b
  let c ← hexValue? c
  let d ← hexValue? d
  return ((a * 16 + b) * 16 + c) * 16 + d

/-- What a text literal is made of: characters, and 16-bit units given by number. -/
inductive Unit16 where
  | char (c : Char)
  | unit (n : Nat)
  deriving DecidableEq, Repr

def shortEscape? : Char → Option Char
  | '"' => some '"'
  | '\\' => some '\\'
  | '/' => some '/'
  | 'b' => some '\x08'
  | 'f' => some '\x0c'
  | 'n' => some '\n'
  | 'r' => some '\r'
  | 't' => some '\t'
  | _ => none

/-- The units up to the closing quote, and the characters behind it. -/
def textUnits : List Char → Option (List Unit16 × List Char)
  | [] => none
  | '"' :: rest => some ([], rest)
  | '\\' :: 'u' :: a :: b :: c :: d :: rest => do
    let n ← codeUnit? a b c d
    let (units, rest) ← textUnits rest
    return (.unit n :: units, rest)
  | '\\' :: e :: rest => do
    let c ← shortEscape? e
    let (units, rest) ← textUnits rest
    return (.char c :: units, rest)
  | c :: rest =>
    if c.toNat < 0x20 || c == '\\' then none
    else do
      let (units, rest) ← textUnits rest
      return (.char c :: units, rest)

/-- The characters that units stand for: a high surrogate takes a low one behind it, and neither
stands alone. -/
def charsOfUnits? : List Unit16 → Option (List Char)
  | [] => some []
  | .char c :: rest => (charsOfUnits? rest).map (c :: ·)
  | .unit n :: rest =>
    if 0xd800 ≤ n ∧ n < 0xdc00 then
      match rest with
      | .unit m :: rest =>
        if 0xdc00 ≤ m ∧ m < 0xe000 then
          (charsOfUnits? rest).map
            (Char.ofNat (0x10000 + (n - 0xd800) * 0x400 + (m - 0xdc00)) :: ·)
        else none
      | _ => none
    else if 0xdc00 ≤ n ∧ n < 0xe000 then none
    else (charsOfUnits? rest).map (Char.ofNat n :: ·)

/-- The text behind an opening quote, `none` where it stands for no text. -/
def textLiteral (cs : List Char) : Option (Option String × List Char) :=
  (textUnits cs).map fun found => ((charsOfUnits? found.1).map String.ofList, found.2)

/-- An optional point with digits. -/
def fractionPart? (cs : List Char) : Option (Option (List Char) × List Char) :=
  match cs with
  | '.' :: rest =>
    let digits := rest.takeWhile Char.isDigit
    if digits.isEmpty then none else some (some digits, rest.dropWhile Char.isDigit)
  | _ => some (none, cs)

/-- An optional exponent; the flag tells whether it is negative. -/
def exponentPart? (cs : List Char) : Option (Option (Bool × List Char) × List Char) :=
  match cs with
  | [] => some (none, cs)
  | mark :: rest =>
    if mark == 'e' || mark == 'E' then
      let minus := rest.head? == some '-'
      let unsigned := if minus || rest.head? == some '+' then rest.drop 1 else rest
      let digits := unsigned.takeWhile Char.isDigit
      if digits.isEmpty then none
      else some (some (minus, digits), unsigned.dropWhile Char.isDigit)
    else some (none, cs)

/-- A number without its sign. Its integer part has no leading zero. -/
def numberLiteral (negative : Bool) (cs : List Char) : Option (Json × List Char) := do
  let whole := cs.takeWhile Char.isDigit
  if whole.isEmpty || (whole.head? == some '0' && 1 < whole.length) then none
  let (fraction, rest) ← fractionPart? (cs.dropWhile Char.isDigit)
  let (exponent, rest) ← exponentPart? rest
  let literal : Literal := { negative, whole, fraction, exponent }
  return (literal.number?.elim .unreadable .number, rest)

/-- Members whose keys all are texts make an object. -/
def objectOf (members : List (Option String × Json)) : Json :=
  match members.mapM fun m => m.1.map fun key => (key, m.2) with
  | some members => .object members
  | none => .unreadable

mutual

/-- A value at the front of the characters, behind blank space. -/
def value (fuel : Nat) (cs : List Char) : Option (Json × List Char) :=
  match fuel with
  | 0 => none
  | fuel + 1 =>
    match skipSpace cs with
    | 'n' :: 'u' :: 'l' :: 'l' :: rest => some (.null, rest)
    | 't' :: 'r' :: 'u' :: 'e' :: rest => some (.bool true, rest)
    | 'f' :: 'a' :: 'l' :: 's' :: 'e' :: rest => some (.bool false, rest)
    | '"' :: rest => (textLiteral rest).map fun found =>
        (found.1.elim .unreadable .string, found.2)
    | '[' :: rest =>
      match skipSpace rest with
      | ']' :: rest => some (.array [], rest)
      | rest => (items fuel rest).map fun found => (.array found.1, found.2)
    | '{' :: rest =>
      match skipSpace rest with
      | '}' :: rest => some (.object [], rest)
      | rest => (members fuel rest).map fun found => (objectOf found.1, found.2)
    | '-' :: rest => numberLiteral true rest
    | rest => numberLiteral false rest

/-- Values parted by commas, up to the closing bracket. -/
def items (fuel : Nat) (cs : List Char) : Option (List Json × List Char) :=
  match fuel with
  | 0 => none
  | fuel + 1 => do
    let (j, rest) ← value fuel cs
    match skipSpace rest with
    | ']' :: rest => return ([j], rest)
    | ',' :: rest =>
      let (more, rest) ← items fuel rest
      return (j :: more, rest)
    | _ => none

/-- Members parted by commas, up to the closing brace. -/
def members (fuel : Nat) (cs : List Char) :
    Option (List (Option String × Json) × List Char) :=
  match fuel with
  | 0 => none
  | fuel + 1 =>
    match skipSpace cs with
    | '"' :: rest => do
      let (key, rest) ← textLiteral rest
      match skipSpace rest with
      | ':' :: rest =>
        let (j, rest) ← value fuel rest
        match skipSpace rest with
        | '}' :: rest => return ([(key, j)], rest)
        | ',' :: rest =>
          let (more, rest) ← members fuel rest
          return ((key, j) :: more, rest)
        | _ => none
      | _ => none
    | _ => none

end

/-- Read a whole document. -/
def parse? (text : String) : Option Json := do
  let cs := text.toList
  let (j, rest) ← value (2 * cs.length + 2) cs
  if (skipSpace rest).isEmpty then some j else none

/-- The value of a whole document, where it has one. -/
def read? (text : String) : Option Json :=
  (parse? text).bind toValue?

end CashWallet.Json
