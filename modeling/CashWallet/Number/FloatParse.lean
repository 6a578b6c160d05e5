import CashWallet.Number.Binary64
import CashWallet.Number.Integer

/-!
# Reading floating-point numbers

The text of a floating-point number has an optional sign and then the word `inf`, `infinity` or
`nan` in any case, or digits with an optional point and an optional exponent. A number is rounded to
the nearest one of the format.
-/

namespace CashWallet.Binary64

def digitsValue (ds : List Char) : Nat :=
  ds.foldl (fun acc c => 10 * acc + (c.toNat - 48)) 0

/-- A mark, an optional sign and at least one digit, or nothing at all. -/
def exponentPart? : List Char → Option Int
  | [] => some 0
  | mark :: rest =>
    if mark == 'e' || mark == 'E' then
      let signed : Bool × List Char :=
        match rest with
        | '-' :: ds => (true, ds)
        | '+' :: ds => (false, ds)
        | ds => (false, ds)
      if signed.2.isEmpty || !signed.2.all Char.isDigit then none
      else
        let n : Int := digitsValue signed.2
        some (if signed.1 then -n else n)
    else none

/-- Digits with a point before, between or behind them, and an exponent. -/
def decimalText? (negative : Bool) (cs : List Char) : Option Binary64 :=
  let whole := cs.takeWhile Char.isDigit
  let rest := cs.dropWhile Char.isDigit
  let fraction := match rest with
    | '.' :: r => r.takeWhile Char.isDigit
    | _ => []
  let rest := match rest with
    | '.' :: r => r.dropWhile Char.isDigit
    | r => r
  let digits := whole ++ fraction
  if digits.isEmpty then none
  else (exponentPart? rest).map fun exponent =>
    ofDecimal negative (digitsValue digits) (exponent - fraction.length)

def unsignedText? (negative : Bool) (cs : List Char) : Option Binary64 :=
  let word := String.ofList (cs.map Char.toLower)
  if word = "inf" ∨ word = "infinity" then some (.infinite negative)
  else if word = "nan" then some .nan
  else decimalText? negative cs

/-- Read a whole text. -/
def ofText? (text : String) : Option Binary64 :=
  match text.toList with
  | '-' :: rest => unsignedText? true rest
  | '+' :: rest => unsignedText? false rest
  | cs => unsignedText? false cs

end CashWallet.Binary64
