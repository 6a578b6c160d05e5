import CashWallet.Json.Basic
import CashWallet.Number.Integer

/-!
# JSON pointers

A pointer is empty, for the value itself, or a list of reference tokens with a slash before each.
A token names a member of an object or the place of an item; a place is written without sign and
without leading zeros.
-/

namespace CashWallet.Json

/-- A tilde stands before a digit for itself or for a slash. The slash is put back first. -/
def unescapeSlash : List Char → List Char
  | '~' :: '1' :: rest => '/' :: unescapeSlash rest
  | c :: rest => c :: unescapeSlash rest
  | [] => []

def unescapeTilde : List Char → List Char
  | '~' :: '0' :: rest => '~' :: unescapeTilde rest
  | c :: rest => c :: unescapeTilde rest
  | [] => []

/-- Split at slashes. -/
def splitSlashes : List Char → List (List Char)
  | [] => [[]]
  | c :: rest =>
    let parts := splitSlashes rest
    if c = '/' then [] :: parts
    else (c :: parts.headD []) :: parts.tail

/-- The reference tokens of a pointer, unless it is malformed. -/
def pointerTokens? (pointer : String) : Option (List String) :=
  match pointer.toList with
  | [] => some []
  | '/' :: rest =>
    some ((splitSlashes rest).map fun token =>
      String.ofList (unescapeTilde (unescapeSlash token)))
  | _ => none

def place? (token : String) : Option Nat :=
  match token.toList with
  | ['0'] => some 0
  | '0' :: _ => none
  | '+' :: _ => none
  | cs => (Integer.unsigned (UInt64.size - 1) cs).toOption

/-- The member of an object, or of several with one key the last. -/
def member? (key : String) (members : List (String × Json)) : Option Json :=
  (members.reverse.find? (·.1 == key)).map (·.2)

def step? (token : String) : Json → Option Json
  | object members => member? token members
  | array items => (place? token).bind (items[·]?)
  | _ => none

/-- The value that a pointer leads to. -/
def pointer? (j : Json) (pointer : String) : Option Json :=
  (pointerTokens? pointer).bind fun tokens =>
    tokens.foldlM (fun j token => step? token j) j

/-- The member with a key, where the value is an object that has it. -/
def field? (j : Json) (key : String) : Option Json :=
  match j with
  | object members => member? key members
  | _ => none

end CashWallet.Json
