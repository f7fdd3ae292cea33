import Bindery.Number.Binary
import Bindery.Text.Numeral

/-!
# Reading decimals

Two ways from a decimal to a double.

* `readFloat?`: the nearest value of a decimal text, in either format, with the
  words for infinity and not a number.
* `scaled?`: a significand times a power of ten by one rounded multiplication
  or division, or two divisions for very small values. It may differ from the
  nearest value in the last place; a value that overflows is refused.
-/

namespace Bindery.Number

open Bindery.Text

/-! ## Nearest value -/

/-- A sign in front of a text, and the rest; no sign counts as plus. -/
def takeSign : List Char → Bool × List Char
  | '-' :: rest => (true, rest)
  | '+' :: rest => (false, rest)
  | cs => (false, cs)

/-- An exponent part: nothing, or the letter `e` and a number. -/
def readExponent? : List Char → Option Int
  | [] => some 0
  | c :: rest => if c == 'e' || c == 'E' then readSigned? rest else none

/-- The digits of a number, read together, the exponent of ten that goes with
    them, and the text behind. -/
def readMantissa? (cs : List Char) : Option (Nat × Int × List Char) :=
  let whole := cs.takeWhile isDigit
  let rest := cs.dropWhile isDigit
  let (fraction, rest) := match rest with
    | '.' :: more => (more.takeWhile isDigit, more.dropWhile isDigit)
    | more => ([], more)
  (readDecimal? (whole ++ fraction)).map fun n => (n, -(fraction.length : Int), rest)

/-- The magnitude nearest to an unsigned decimal text. -/
def readMagnitude? (f : Format) (cs : List Char) : Option Nat := do
  let word := String.ofList (cs.map Char.toLower)
  if word = "inf" ∨ word = "infinity" then some f.infinity
  else if word = "nan" then some f.notANumber
  else
    let (digits, shift, rest) ← readMantissa? cs
    let exponent ← readExponent? rest
    let k := max (min (shift + exponent) 1000) (-(5000 + (decimal digits).length : Int))
    let (n, d) := scaledRatio 10 digits 1 k
    return f.round n d

/-- The sign and magnitude nearest to a decimal text. -/
def readFloat? (f : Format) (cs : List Char) : Option (Bool × Nat) :=
  let (negative, rest) := takeSign cs
  (readMagnitude? f rest).map fun magnitude => (negative, magnitude)

/-! ## Scaling in steps -/

/-- The product of two finite magnitudes, rounded. -/
def mulMagnitude (x y : Nat) : Nat :=
  let f := Format.double
  let (n, d) := f.ratio x
  let (m, e) := f.ratio y
  f.round (n * m) (d * e)

/-- The quotient of two finite magnitudes, rounded. -/
def divMagnitude (x y : Nat) : Nat :=
  let f := Format.double
  let (n, d) := f.ratio x
  let (m, e) := f.ratio y
  f.round (n * e) (d * m)

/-- The magnitude nearest to a power of ten. -/
def powerOfTen (k : Nat) : Nat := Format.double.round (Nat.pow 10 k) 1

/-- The greatest power of ten in the range of doubles. -/
def greatestPower : Nat := 308

/-- A finite magnitude times a power of ten; nothing if that overflows. -/
def scaleUp? (x k : Nat) : Option Nat :=
  if x = 0 then some 0
  else if greatestPower < k then none
  else
    let y := mulMagnitude x (powerOfTen k)
    if y < Format.double.infinity then some y else none

/-- A finite magnitude divided by a power of ten, in steps of at most the
    greatest power. -/
def scaleDown (x k : Nat) : Nat :=
  if _h : greatestPower < k then
    if x = 0 then 0 else scaleDown (divMagnitude x (powerOfTen greatestPower)) (k - greatestPower)
  else divMagnitude x (powerOfTen k)
termination_by k
decreasing_by unfold greatestPower at *; omega

/-- The magnitude of `significand · 10 ^ k`, scaled in steps. -/
def scaled? (significand : Nat) (k : Int) : Option Nat :=
  let x := Format.double.round significand 1
  match k with
  | .ofNat k => scaleUp? x k
  | .negSucc k => some (scaleDown x (k + 1))

end Bindery.Number
