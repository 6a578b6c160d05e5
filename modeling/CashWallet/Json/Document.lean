import CashWallet.Bytes.Utf8
import CashWallet.Json.Parser

/-!
# JSON documents as bytes

Bytes that are no UTF-8 may stand in a text literal as long as nobody asks for that text, and they
are a fault elsewhere. The escape of half a surrogate pair is treated in the same way, so documents
are read as if it stood in the place of such bytes.
-/

namespace CashWallet.Json

/-- The escape of half a surrogate pair, twice, so that no other half completes it. -/
def halfPair : List Char :=
  ['\\', 'u', 'd', '8', '0', '0', '\\', 'u', 'd', '8', '0', '0']

/-- The characters of a document. Behind a backslash a malformed part is a fault in any literal, and
so is the character that stands for it there. -/
def documentChars : List (Option Char) → List Char
  | [] => []
  | some '\\' :: none :: rest => '\\' :: Utf8.replacement :: documentChars rest
  | some '\\' :: some c :: rest => '\\' :: c :: documentChars rest
  | some c :: rest => c :: documentChars rest
  | none :: rest => halfPair ++ documentChars rest

/-- Read a whole document from its bytes. -/
def parseBytes? (bs : Bytes) : Option Json :=
  parse? (String.ofList (documentChars (Utf8.decode none bs)))

end CashWallet.Json
