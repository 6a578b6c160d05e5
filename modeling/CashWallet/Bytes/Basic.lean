/-!
# Byte strings

Wire data is a list of bytes, so that its laws are those of lists.
-/

namespace CashWallet

/-- Wire data, first byte first. -/
abbrev Bytes := List UInt8

/-- The UTF-8 form of a text. -/
def utf8Bytes (s : String) : Bytes :=
  s.toUTF8.data.toList

end CashWallet
