import CashWallet.Text.Printable

/-!
# Quoted text for messages

A text inside an error message stands in double quotes, a character in single quotes. The quote in
use and the backslash are escaped, the common control characters have short forms, and all else
that does not show is written as its code point in braces.
-/

namespace CashWallet.Text

def hexDigit (n : Nat) : Char :=
  if n < 10 then Char.ofNat (48 + n) else Char.ofNat (87 + n)

/-- Lower-case hexadecimal digits without leading zeros. -/
def hexNumber (n : Nat) : String :=
  String.ofList (Nat.toDigits 16 n)

def codePointEscape (c : Char) : String :=
  "\\u\x7b" ++ hexNumber c.toNat ++ "\x7d"

/-- One character of a text that stands between two `quote` marks. -/
def escapeChar (quote c : Char) : String :=
  match c with
  | '\x00' => "\\0"
  | '\t' => "\\t"
  | '\r' => "\\r"
  | '\n' => "\\n"
  | '\\' => "\\\\"
  | _ =>
    if c = quote then String.ofList ['\\', c]
    else if isPrintable c then String.singleton c
    else codePointEscape c

/-- A text in double quotes. -/
def quoted (s : String) : String :=
  "\"" ++ String.join (s.toList.map (escapeChar '"')) ++ "\""

/-- A character in single quotes. -/
def quotedChar (c : Char) : String :=
  "'" ++ escapeChar '\'' c ++ "'"

end CashWallet.Text
