import CashWallet.Json.Basic
import CashWallet.Number.FloatText
import CashWallet.Text.Quoted

/-!
# Writing JSON

Values are written without spaces and members in their order. Inside a text only the quote, the
backslash and the control characters below the space are escaped.
-/

namespace CashWallet.Json

def escapeChars (c : Char) : List Char :=
  match c with
  | '"' => ['\\', '"']
  | '\\' => ['\\', '\\']
  | '\x08' => ['\\', 'b']
  | '\x0c' => ['\\', 'f']
  | '\n' => ['\\', 'n']
  | '\r' => ['\\', 'r']
  | '\t' => ['\\', 't']
  | c =>
    if c.toNat < 0x20 then
      ['\\', 'u', '0', '0', Text.hexDigit (c.toNat / 16), Text.hexDigit (c.toNat % 16)]
    else [c]

def textChars (s : String) : List Char :=
  '"' :: s.toList.flatMap escapeChars ++ ['"']

def Number.chars : Number → List Char
  | .natural n => Nat.toDigits 10 n.toNat
  | .negative n => '-' :: Nat.toDigits 10 n.toNat
  | .float x => (x.format FloatLayout.json).toList

mutual

def chars : Json → List Char
  | null => ['n', 'u', 'l', 'l']
  | bool true => ['t', 'r', 'u', 'e']
  | bool false => ['f', 'a', 'l', 's', 'e']
  | number n => n.chars
  | string s => textChars s
  | array items => '[' :: itemChars items ++ [']']
  | object members => '{' :: memberChars members ++ ['}']
  | unreadable => []

/-- Values parted by commas. -/
def itemChars : List Json → List Char
  | [] => []
  | [j] => chars j
  | j :: rest => chars j ++ ',' :: itemChars rest

/-- Members parted by commas. -/
def memberChars : List (String × Json) → List Char
  | [] => []
  | [(k, j)] => textChars k ++ ':' :: chars j
  | (k, j) :: rest => textChars k ++ ':' :: chars j ++ ',' :: memberChars rest

end

/-- The compact text of a value. -/
def print (j : Json) : String :=
  String.ofList (chars j)

def Number.print (n : Number) : String :=
  String.ofList n.chars

end CashWallet.Json
