import CashWallet.Number.Binary64
import CashWallet.Number.Digits

/-!
# Shortest decimals

The decimal with the fewest digits that rounds to a given binary number, and of those the nearest
one. All comparisons are exact: a candidate `c * 10 ^ t` is held against a bound `a * 2 ^ q` after
both are multiplied by what clears their denominators.
-/

namespace CashWallet.Shortest

/-- Compare `c * 10 ^ t` with `a * 2 ^ q`. -/
def compareWith (c : Nat) (t : Int) (a : Nat) (q : Int) : Ordering :=
  compare ((c * Nat.pow 10 t.toNat) <<< (-q).toNat) ((a * Nat.pow 10 (-t).toNat) <<< q.toNat)

/-- The numbers that round to one binary number: between `low * 2 ^ scale` and `high * 2 ^ scale`,
with `mid * 2 ^ scale` the number itself. -/
structure Interval where
  low : Nat
  mid : Nat
  high : Nat
  scale : Int
  closed : Bool

/-- Numbers are twice as dense below a power of two as above it. -/
def Interval.around (m : Nat) (e : Int) : Interval where
  low := if m = Binary64.fullMantissa ∧ Binary64.minExponent < e then 4 * m - 1 else 4 * m - 2
  mid := 4 * m
  high := 4 * m + 2
  scale := e - 2
  closed := m % 2 == 0

def Interval.contains (i : Interval) (c : Nat) (t : Int) : Bool :=
  match compareWith c t i.low i.scale, compareWith c t i.high i.scale with
  | .gt, .lt => true
  | .eq, .lt => i.closed
  | .gt, .eq => i.closed
  | _, _ => false

/-- The greatest `c` with `c * 10 ^ t` not above the number. -/
def Interval.floor (i : Interval) (t : Int) : Nat :=
  (i.mid * Nat.pow 10 (-t).toNat) <<< i.scale.toNat / (Nat.pow 10 t.toNat <<< (-i.scale).toNat)

/-- Of two neighbours `c` and `c + 1`, both inside, the nearer one; of two equally near ones the
even one. -/
def Interval.nearer (i : Interval) (c : Nat) (t : Int) : Nat :=
  match compareWith (2 * c + 1) t (2 * i.mid) i.scale with
  | .gt => c
  | .lt => c + 1
  | .eq => c + c % 2

/-- A decimal on the grid of `10 ^ t` inside the interval. -/
def Interval.onGrid? (i : Interval) (t : Int) : Option Nat :=
  let c := i.floor t
  match i.contains c t, i.contains (c + 1) t with
  | true, true => some (i.nearer c t)
  | true, false => some c
  | false, true => some (c + 1)
  | false, false => none

/-- Try ever finer grids, starting with that of `10 ^ t`. -/
def Interval.search (i : Interval) : Nat → Int → Nat × Int
  | 0, t => (i.floor t, t)
  | grids + 1, t =>
    match i.onGrid? t with
    | some c => (c, t)
    | none => i.search grids (t - 1)

/-- Take zeros off the end of a coefficient of at most `fuel` digits. -/
def dropZeros : Nat → Nat → Int → Nat × Int
  | 0, c, t => (c, t)
  | fuel + 1, c, t => if c ≠ 0 ∧ c % 10 = 0 then dropZeros fuel (c / 10) (t + 1) else (c, t)

/-- The shortest decimal `c * 10 ^ t` for `m * 2 ^ e`, where `m` is not zero. -/
def decimal (m : Nat) (e : Int) : Nat × Int :=
  let top : Int := ((m.log2 : Int) + e) * 30103 / 100000 + 1
  let found := (Interval.around m e).search 20 top
  dropZeros 20 found.1 found.2

end CashWallet.Shortest
