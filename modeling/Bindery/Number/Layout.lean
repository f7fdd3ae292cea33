import Bindery.Number.Shortest

/-!
# Layout of floating point numbers

A double is written by its shortest decimal. A layout says in which range of
exponents the decimal is positional, and how a whole number, an exponent and
the values without digits are spelled.
-/

namespace Bindery.Number

open Bindery.Text (decimal)

/-- How a double is written. -/
structure Layout where
  /-- The least exponent of ten of the first digit written positionally. -/
  leastPositional : Option Int
  /-- The greatest one. -/
  greatestPositional : Option Int
  /-- Whether a positional whole number ends in `.0`. -/
  pointZero : Bool
  /-- Whether a positive exponent has a plus sign. -/
  plusSign : Bool
  /-- Which of two equally near decimals is written. -/
  tie : Tie
  /-- The text for infinity. -/
  infinity : String
  /-- The text for negative infinity. -/
  negativeInfinity : String
  /-- The text for what is not a number. -/
  notANumber : String

/-- Digits around a decimal point: `lead` is the exponent of ten of the first
    digit. -/
def positional (pointZero : Bool) (digits : List Char) (lead : Int) : List Char :=
  if lead < 0 then '0' :: '.' :: (List.replicate (-lead - 1).toNat '0' ++ digits)
  else
    let whole := lead.toNat + 1
    if digits.length ≤ whole then
      digits ++ List.replicate (whole - digits.length) '0' ++ (if pointZero then ['.', '0'] else [])
    else digits.take whole ++ '.' :: digits.drop whole

/-- Digits with an exponent: one digit before the point. -/
def scientific (plusSign : Bool) (digits : List Char) (lead : Int) : List Char :=
  let fraction := digits.drop 1
  let sign := if lead < 0 then ['-'] else if plusSign then ['+'] else []
  digits.take 1 ++ (if fraction.isEmpty then [] else '.' :: fraction) ++ 'e' :: sign
    ++ decimal lead.natAbs

/-- Whether an exponent lies in the positional range. -/
def Layout.isPositional (l : Layout) (lead : Int) : Bool :=
  l.leastPositional.all (decide <| · ≤ lead) && l.greatestPositional.all (decide <| lead ≤ ·)

/-- The text of a finite magnitude without its sign. -/
def Layout.magnitudeText (l : Layout) (magnitude : Nat) : List Char :=
  if magnitude = 0 then positional l.pointZero ['0'] 0
  else
    let d := shortest l.tie magnitude
    let digits := decimal d.digits
    let lead := d.exponent + digits.length - 1
    if l.isPositional lead then positional l.pointZero digits lead
    else scientific l.plusSign digits lead

/-- The text of a double (`Display`, `Debug` or `serde_json` of `f64`, by the
    layout). -/
def Layout.text (l : Layout) (x : Double) : String :=
  if x.isNaN then l.notANumber
  else if x.isFinite then
    String.ofList ((if x.isNegative then ['-'] else []) ++ l.magnitudeText x.magnitude)
  else if x.isNegative then l.negativeInfinity
  else l.infinity

end Bindery.Number
