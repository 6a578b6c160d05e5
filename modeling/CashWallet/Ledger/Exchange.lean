import CashWallet.Bytes.Basic
import CashWallet.Json.Basic
import CashWallet.Text.Quoted

/-!
# Requests and what comes of them

Talking to a backend is a tree of requests: each node is one request, and how it goes on depends on
what comes of it. Nothing else is known about the other side, so whatever holds along every branch
holds for every behaviour of every backend. All conversations are finite.
-/

namespace CashWallet

/-- A request for a document, or one that carries a document. -/
structure Request where
  url : String
  token : Option String
  body : Option Json

/-- What comes of a request. -/
inductive Outcome where
  | unreachable
  | reply (status : Nat) (body : String)
  deriving DecidableEq, Repr

namespace Request

def get (url : String) (token : Option String) : Request := ⟨url, token, none⟩

def post (url : String) (token : Option String) (body : Json) : Request := ⟨url, token, some body⟩

def method (r : Request) : String :=
  if r.body.isSome then "POST" else "GET"

/-- The form encoding of a byte. -/
def formByte (b : UInt8) : List Char :=
  let c := Char.ofNat b.toNat
  if c.isAlphanum || c == '*' || c == '-' || c == '.' || c == '_' then [c]
  else if c == ' ' then ['+']
  else ['%', (Text.hexDigit (b.toNat / 16)).toUpper, (Text.hexDigit (b.toNat % 16)).toUpper]

/-- The form encoding of a text. -/
def formEncode (text : String) : String :=
  String.ofList ((utf8Bytes text).flatMap formByte)

/-- The URL with the token at the end of its query. -/
def fullUrl (r : Request) : String :=
  match r.token with
  | none => r.url
  | some token =>
    let mark := if r.url.toList.contains '?' then "&" else "?"
    r.url ++ mark ++ "token=" ++ formEncode token

end Request

/-- A conversation that ends with a value. -/
inductive Exchange (α : Type) where
  | done (a : α)
  | ask (request : Request) (next : Outcome → Exchange α)

namespace Exchange

def bind : Exchange α → (α → Exchange β) → Exchange β
  | done a, f => f a
  | ask r next, f => ask r fun outcome => (next outcome).bind f

instance : Monad Exchange where
  pure := done
  bind := bind

/-- A single request. -/
def request (r : Request) : Exchange Outcome :=
  ask r done

/-- The end of a conversation in which the other side is a function of the requests so far. -/
def runFrom (answer : List Request → Outcome) (asked : List Request) : Exchange α → α
  | done a => a
  | ask r next => runFrom answer (asked ++ [r]) (next (answer (asked ++ [r])))

def run (answer : List Request → Outcome) (x : Exchange α) : α :=
  runFrom answer [] x

/-- The requests of a conversation, in order. -/
def requestsFrom (answer : List Request → Outcome) (asked : List Request) :
    Exchange α → List Request
  | done _ => asked
  | ask r next => requestsFrom answer (asked ++ [r]) (next (answer (asked ++ [r])))

def requests (answer : List Request → Outcome) (x : Exchange α) : List Request :=
  requestsFrom answer [] x

@[simp] theorem bind_done (a : α) (f : α → Exchange β) : (done a).bind f = f a := rfl

@[simp] theorem bind_ask (r : Request) (next : Outcome → Exchange α) (f : α → Exchange β) :
    (ask r next).bind f = ask r fun outcome => (next outcome).bind f := rfl

theorem bind_assoc (x : Exchange α) (f : α → Exchange β) (g : β → Exchange γ) :
    (x.bind f).bind g = x.bind fun a => (f a).bind g := by
  induction x with
  | done a => rfl
  | ask r next ih => simp only [bind_ask, ih]

@[simp] theorem pure_eq (a : α) : (pure a : Exchange α) = done a := rfl

@[simp] theorem bind_eq (x : Exchange α) (f : α → Exchange β) : x >>= f = x.bind f := rfl

end Exchange

end CashWallet
