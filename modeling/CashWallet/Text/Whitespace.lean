/-!
# Blank space around a text

The White_Space property of Unicode, and trimming by it. The zero-width space and the byte-order
mark do not have the property and stay.
-/

namespace CashWallet.Text

/-- The characters with the Unicode property White_Space. -/
def isBlank (c : Char) : Bool :=
  (9 ≤ c.val && c.val ≤ 13) || c == ' ' || c.val == 0x85 || c.val == 0xa0 || c.val == 0x1680 ||
    (0x2000 ≤ c.val && c.val ≤ 0x200a) || c.val == 0x2028 || c.val == 0x2029 ||
    c.val == 0x202f || c.val == 0x205f || c.val == 0x3000

/-- Drop the characters of a class from both ends. -/
def stripChars (drop : Char → Bool) (cs : List Char) : List Char :=
  ((cs.dropWhile drop).reverse.dropWhile drop).reverse

def trimChars (cs : List Char) : List Char :=
  stripChars isBlank cs

/-- Drop blank space from both ends. -/
def trim (s : String) : String :=
  String.ofList (trimChars s.toList)

end CashWallet.Text
