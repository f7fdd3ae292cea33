import Bindery.Number.Binary
import Bindery.Text.Numeral

/-!
# Shortest decimals

The decimal with the fewest digits among those that round to a given double,
and of those the nearest one. The decimals that round to a double fill an
interval around it, whose ends belong to it when the significand is even. For
one digit, two digits and so on, the two neighbours of the double on that
decimal grid are tested against the interval; the first grid with a hit wins.
-/

namespace Bindery.Number

open Bindery.Text (decimal)

/-- A positive decimal `digits · 10 ^ exponent`. -/
structure Decimal where
  digits : Nat
  exponent : Int
  deriving DecidableEq

/-- Which of two equally near neighbours is taken. -/
inductive Tie where
  /-- The greater one. -/
  | up
  /-- The one with an even last digit. -/
  | even
  deriving DecidableEq

/-- The decimals that round to a double, over a common denominator: the value,
    the ends of the interval, and whether the ends belong to it. -/
structure Interval where
  value : Nat
  low : Nat
  high : Nat
  den : Nat
  closed : Bool

/-- The interval of a positive finite magnitude. Below a power of two the
    doubles are twice as dense, so the lower end is half as far away. -/
def Interval.of (magnitude : Nat) : Interval :=
  let f := Format.double
  let m := f.significand magnitude
  let below := if m = f.fractionCount ∧ f.fractionCount < magnitude then 1 else 2
  let (scale, den) := scaledRatio 2 1 1 (f.exponent magnitude - 2)
  { value := 4 * m * scale, low := (4 * m - below) * scale, high := (4 * m + 2) * scale,
    den := den, closed := m % 2 == 0 }

/-- Whether the ratio `num / den` lies in the interval. -/
def Interval.contains (i : Interval) (num den : Nat) : Bool :=
  if i.closed then decide (i.low * den ≤ num * i.den) && decide (num * i.den ≤ i.high * den)
  else decide (i.low * den < num * i.den) && decide (num * i.den < i.high * den)

/-- The number of decimal digits of a number. -/
def decimalLength (n : Nat) : Nat := (decimal n).length

/-- The exponent of ten of the first digit of a positive ratio. -/
def decimalExponent (num den : Nat) : Int :=
  if den ≤ num then decimalLength (num / den) - 1
  else -(decimalLength ((den + num - 1) / num - 1) : Int)

/-- The neighbour on the grid `10 ^ k` that lies in the interval: the nearer one
    if both do. -/
def Interval.onGrid? (i : Interval) (tie : Tie) (k : Int) : Option Nat :=
  let (n, d) := scaledRatio 10 i.value i.den (-k)
  let a := n / d
  let inside (x : Nat) : Bool :=
    let (p, q) := scaledRatio 10 x 1 k
    i.contains p q
  let upper : Bool :=
    if 2 * (n % d) < d then false
    else if d < 2 * (n % d) then true
    else match tie with
      | .up => true
      | .even => a % 2 == 1
  match inside a, inside (a + 1) with
  | true, true => some (if upper then a + 1 else a)
  | true, false => some a
  | false, true => some (a + 1)
  | false, false => none

/-- The same decimal with its trailing zeros moved into the exponent. -/
def Decimal.normalize (d : Decimal) : Decimal :=
  if _h : d.digits ≠ 0 ∧ d.digits % 10 = 0 then
    Decimal.normalize ⟨d.digits / 10, d.exponent + 1⟩
  else d
termination_by d.digits
decreasing_by omega

/-- The shortest decimal that rounds to the double of a positive finite
    magnitude. Seventeen digits always suffice. -/
def shortest (tie : Tie) (magnitude : Nat) : Decimal :=
  let i := Interval.of magnitude
  let lead := decimalExponent i.value i.den
  let found := (List.range 17).findSome? fun (n : Nat) =>
    let k := lead - n
    (i.onGrid? tie k).map fun digits => (⟨digits, k⟩ : Decimal)
  (found.getD ⟨0, 0⟩).normalize

end Bindery.Number
