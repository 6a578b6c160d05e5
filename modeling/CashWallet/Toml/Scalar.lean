import CashWallet.Number.FloatParse
import CashWallet.Toml.Basic

/-!
# Texts, numbers and dates in TOML

Readers take a front part off the characters and leave the rest. Texts are quoted once or three
times; in double quotes they have escapes, in single quotes none. Between two digits of a number
there may be an underscore.
-/

namespace CashWallet.Toml

/-- A reader of a front part. -/
abbrev Reader (α : Type) := List Char → Option (α × List Char)

def isBlank (c : Char) : Bool := c == ' ' || c == '\t'

def skipBlank (cs : List Char) : List Char := cs.dropWhile isBlank

/-- The characters that may stand in comments and texts: no control characters but the tab. -/
def isPlain (c : Char) : Bool := c == '\t' || (0x20 ≤ c.val && c.val != 0x7f)

/-- The end of a line, taken off. -/
def newline? : List Char → Option (List Char)
  | '\n' :: rest => some rest
  | '\r' :: '\n' :: rest => some rest
  | _ => none

/-! ## Texts -/

def hexValue? (c : Char) : Option Nat :=
  if c.isDigit then some (c.toNat - 48)
  else if 'a' ≤ c ∧ c ≤ 'f' then some (c.toNat - 87)
  else if 'A' ≤ c ∧ c ≤ 'F' then some (c.toNat - 55)
  else none

/-- The character with a code point in hexadecimal. Surrogates are no characters. -/
def codePoint? (digits : List Char) : Option Char := do
  let ds ← digits.mapM hexValue?
  let n := ds.foldl (fun acc d => 16 * acc + d) 0
  if n < 0xd800 ∨ (0xe000 ≤ n ∧ n < 0x110000) then some (Char.ofNat n) else none

def shortEscape? : Char → Option Char
  | 'b' => some '\x08'
  | 't' => some '\t'
  | 'n' => some '\n'
  | 'f' => some '\x0c'
  | 'r' => some '\r'
  | '"' => some '"'
  | '\\' => some '\\'
  | _ => none

/-- The character that an escape stands for, behind its backslash. -/
def escape? : Reader Char
  | 'u' :: rest =>
    if (rest.take 4).length = 4 then (codePoint? (rest.take 4)).map fun c => (c, rest.drop 4)
    else none
  | 'U' :: rest =>
    if (rest.take 8).length = 8 then (codePoint? (rest.take 8)).map fun c => (c, rest.drop 8)
    else none
  | e :: rest => (shortEscape? e).map fun c => (c, rest)
  | [] => none

def prepend (c : Char) (found : List Char × List Char) : List Char × List Char :=
  (c :: found.1, found.2)

/-- A text with escapes up to a double quote, on one line. -/
def basicText (fuel : Nat) (cs : List Char) : Option (List Char × List Char) :=
  match fuel, cs with
  | 0, _ => none
  | _, [] => none
  | _ + 1, '"' :: rest => some ([], rest)
  | fuel + 1, '\\' :: rest => do
    let (c, rest) ← escape? rest
    (basicText fuel rest).map (prepend c)
  | fuel + 1, c :: rest => if isPlain c then (basicText fuel rest).map (prepend c) else none

/-- A text without escapes up to a single quote, on one line. -/
def literalText (cs : List Char) : Option (List Char × List Char) :=
  match cs.dropWhile fun c => isPlain c && c != '\'' with
  | '\'' :: rest => some (cs.takeWhile fun c => isPlain c && c != '\'', rest)
  | _ => none

/-- The end of a text over several lines: three quotes, with up to two quotes of the text right
before them. -/
def closing? (quote : Char) (cs : List Char) : Option (List Char × List Char) :=
  let quotes := (cs.takeWhile (· == quote)).length
  if quotes < 3 then none
  else
    let kept := min (quotes - 3) 2
    some (List.replicate kept quote, cs.drop (kept + 3))

/-- Drop blank space and the ends of lines. -/
def skipLines : List Char → List Char
  | '\n' :: rest => skipLines rest
  | '\r' :: '\n' :: rest => skipLines rest
  | c :: rest => if isBlank c then skipLines rest else c :: rest
  | [] => []

/-- A text over several lines. With escapes, a backslash at the end of a line joins it with the
next one that is not blank. -/
def linesText (quote : Char) (escapes : Bool) (fuel : Nat) (cs : List Char) :
    Option (List Char × List Char) :=
  match fuel with
  | 0 => none
  | fuel + 1 =>
    match closing? quote cs with
    | some found => some found
    | none =>
      match newline? cs, cs with
      | some rest, _ => (linesText quote escapes fuel rest).map (prepend '\n')
      | none, [] => none
      | none, c :: rest =>
        if escapes && c == '\\' then
          if (newline? (skipBlank rest)).isSome then
            linesText quote escapes fuel (skipLines rest)
          else do
            let (c, rest) ← escape? rest
            (linesText quote escapes fuel rest).map (prepend c)
        else if isPlain c then (linesText quote escapes fuel rest).map (prepend c)
        else none

/-- The end of the line right behind the opening quotes does not count. -/
def skipNewline (cs : List Char) : List Char :=
  (newline? cs).getD cs

/-- A text in any of the four kinds of quotes. -/
def text? (cs : List Char) : Option (String × List Char) :=
  let found := match cs with
    | '"' :: '"' :: '"' :: rest => linesText '"' true (rest.length + 1) (skipNewline rest)
    | '"' :: rest => basicText (rest.length + 1) rest
    | '\'' :: '\'' :: '\'' :: rest => linesText '\'' false (rest.length + 1) (skipNewline rest)
    | '\'' :: rest => literalText rest
    | _ => none
  found.map fun found => (String.ofList found.1, found.2)

/-! ## Numbers -/

/-- Digits behind a first one, each with an underscore before it or not. -/
def moreDigits (digit : Char → Bool) : List Char → List Char × List Char
  | '_' :: c :: rest =>
    if digit c then
      let found := moreDigits digit rest
      (c :: found.1, found.2)
    else ([], '_' :: c :: rest)
  | c :: rest =>
    if digit c then
      let found := moreDigits digit rest
      (c :: found.1, found.2)
    else ([], c :: rest)
  | [] => ([], [])

/-- One digit or more. -/
def digits? (digit : Char → Bool) : Reader (List Char)
  | c :: rest =>
    if digit c then
      let found := moreDigits digit rest
      some (c :: found.1, found.2)
    else none
  | [] => none

def sign? : List Char → Option Bool × List Char
  | '-' :: rest => (some true, rest)
  | '+' :: rest => (some false, rest)
  | cs => (none, cs)

/-- Decimal digits without leading zeros. -/
def wholePart? : Reader (List Char)
  | '0' :: rest => some (['0'], rest)
  | cs => digits? Char.isDigit cs

def inRange (n : Int) : Option Toml :=
  if Int64.minValue.toInt ≤ n ∧ n ≤ Int64.maxValue.toInt then some (.integer n) else none

def radixValue? (radix : Nat) (ds : List Char) : Option Nat := do
  let ds ← ds.mapM hexValue?
  return ds.foldl (fun acc d => radix * acc + d) 0

def isRadixDigit (radix : Nat) (c : Char) : Bool :=
  match hexValue? c with
  | some d => d < radix
  | none => false

/-- An integer in another base than ten. -/
def radixInteger? (radix : Nat) (cs : List Char) : Option (Toml × List Char) := do
  let (ds, rest) ← digits? (isRadixDigit radix) cs
  let n ← radixValue? radix ds
  return (← inRange n, rest)

/-- A point with digits behind it, or nothing. -/
def fraction? : Reader (Option (List Char))
  | '.' :: rest => (digits? Char.isDigit rest).map fun found => (some found.1, found.2)
  | cs => some (none, cs)

/-- An exponent, or nothing. -/
def exponent? : Reader (Option Int)
  | [] => some (none, [])
  | mark :: rest =>
    if mark == 'e' || mark == 'E' then do
      let (minus, rest) := sign? rest
      let (ds, rest) ← digits? Char.isDigit rest
      let n : Int := Binary64.digitsValue ds
      return (some (if minus = some true then -n else n), rest)
    else some (none, mark :: rest)

/-- A decimal number. A floating-point number may be negative but not positive infinity. -/
def decimal? (cs : List Char) : Option (Toml × List Char) := do
  let (minus, rest) := sign? cs
  let negative := minus = some true
  let (whole, rest) ← wholePart? rest
  let (fraction, rest) ← fraction? rest
  let (exponent, rest) ← exponent? rest
  match fraction, exponent with
  | none, none =>
    let n : Int := Binary64.digitsValue whole
    return (← inRange (if negative then -n else n), rest)
  | _, _ =>
    let part := fraction.getD []
    let x := Binary64.ofDecimal negative (Binary64.digitsValue (whole ++ part))
      (exponent.getD 0 - part.length)
    if x = .infinite false then none else return (.float x, rest)

/-- Infinity and the number that is none, with or without a sign. -/
def special? (cs : List Char) : Option (Toml × List Char) :=
  let (minus, rest) := sign? cs
  match rest with
  | 'i' :: 'n' :: 'f' :: rest => some (.float (.infinite (minus = some true)), rest)
  | 'n' :: 'a' :: 'n' :: rest => some (.float .nan, rest)
  | _ => none

def number? (cs : List Char) : Option (Toml × List Char) :=
  match cs with
  | '0' :: 'x' :: rest => radixInteger? 16 rest
  | '0' :: 'o' :: rest => radixInteger? 8 rest
  | '0' :: 'b' :: rest => radixInteger? 2 rest
  | _ => (special? cs).or (decimal? cs)

/-! ## Dates and times -/

/-- A number of exactly so many digits, up to a limit. -/
def fixedDigits? (count low high : Nat) (cs : List Char) : Option (Nat × List Char) :=
  let ds := cs.take count
  let n := Binary64.digitsValue ds
  if ds.length = count ∧ ds.all Char.isDigit ∧ low ≤ n ∧ n ≤ high then some (n, cs.drop count)
  else none

def mark? (mark : Char) : Reader Unit
  | c :: rest => if c = mark then some ((), rest) else none
  | [] => none

def daysIn (year month : Nat) : Nat :=
  if month = 2 then
    if year % 4 = 0 ∧ (year % 100 ≠ 0 ∨ year % 400 = 0) then 29 else 28
  else if month = 4 ∨ month = 6 ∨ month = 9 ∨ month = 11 then 30
  else 31

/-- What is behind a date. -/
def afterDate? (cs : List Char) : Option (List Char) := do
  let (year, rest) ← fixedDigits? 4 0 9999 cs
  let (_, rest) ← mark? '-' rest
  let (month, rest) ← fixedDigits? 2 1 12 rest
  let (_, rest) ← mark? '-' rest
  let (_, rest) ← fixedDigits? 2 1 (daysIn year month) rest
  return rest

/-- What is behind a time of the day. A minute may have a leap second. -/
def afterTime? (cs : List Char) : Option (List Char) := do
  let (_, rest) ← fixedDigits? 2 0 23 cs
  let (_, rest) ← mark? ':' rest
  let (_, rest) ← fixedDigits? 2 0 59 rest
  let (_, rest) ← mark? ':' rest
  let (_, rest) ← fixedDigits? 2 0 60 rest
  match rest with
  | '.' :: fraction =>
    if (fraction.takeWhile Char.isDigit).isEmpty then none
    else return fraction.dropWhile Char.isDigit
  | _ => return rest

/-- What is behind an offset from universal time, which may be left out. -/
def afterOffset? (cs : List Char) : Option (List Char) :=
  match cs with
  | 'Z' :: rest => some rest
  | 'z' :: rest => some rest
  | c :: rest =>
    if c == '+' || c == '-' then do
      let (_, rest) ← fixedDigits? 2 0 23 rest
      let (_, rest) ← mark? ':' rest
      let (_, rest) ← fixedDigits? 2 0 59 rest
      return rest
    else some cs
  | [] => some []

/-- What is behind a time with its offset that follows a date, or behind the date alone. -/
def afterDateTime? (cs : List Char) : Option (List Char) :=
  match cs with
  | c :: rest =>
    if c == 'T' || c == 't' then (afterTime? rest).bind afterOffset?
    else if c == ' ' then
      match afterTime? rest with
      | some rest => afterOffset? rest
      | none => some cs
    else some cs
  | [] => some []

/-- A date, a time, or both. -/
def moment? (cs : List Char) : Option (Toml × List Char) :=
  (((afterDate? cs).bind afterDateTime?).or (afterTime? cs)).map fun rest =>
    (.moment (String.ofList (cs.take (cs.length - rest.length))), rest)

end CashWallet.Toml
