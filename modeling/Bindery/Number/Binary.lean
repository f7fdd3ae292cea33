/-!
# Binary floating point

The two binary interchange formats as bit patterns, with values in exact
arithmetic. The magnitude of a pattern is its bits without the sign; a finite
magnitude denotes `significand · 2 ^ exponent`, and consecutive magnitudes
denote consecutive values, which is what `Format.round` builds on.

* `Format.round`: the magnitude nearest to a ratio, ties to the even one.
* `Double`, `Single`: the 64 bit and 32 bit formats.
-/

namespace Bindery.Number

/-! ## Formats -/

/-- A binary format: the widths of its fraction and exponent fields. -/
structure Format where
  fractionBits : Nat
  exponentBits : Nat

/-- The 64 bit format. -/
def Format.double : Format := ⟨52, 11⟩

/-- The 32 bit format. -/
def Format.single : Format := ⟨23, 8⟩

/-- The number of fractions of one exponent. -/
def Format.fractionCount (f : Format) : Nat := Nat.pow 2 f.fractionBits

/-- The distance between an exponent and its field. -/
def Format.bias (f : Format) : Int := (Nat.pow 2 (f.exponentBits - 1) : Nat) - 1

/-- The exponent of the least normal value. -/
def Format.leastExponent (f : Format) : Int := 1 - f.bias

/-- The magnitude of infinity; greater ones are not numbers. -/
def Format.infinity (f : Format) : Nat := (Nat.pow 2 f.exponentBits - 1) * f.fractionCount

/-- The magnitude used for a result that is not a number. -/
def Format.notANumber (f : Format) : Nat := f.infinity + Nat.pow 2 (f.fractionBits - 1)

/-- The value of the sign bit. -/
def Format.signBit (f : Format) : Nat := Nat.pow 2 (f.fractionBits + f.exponentBits)

/-- The significand of a finite magnitude. -/
def Format.significand (f : Format) (magnitude : Nat) : Nat :=
  if magnitude < f.fractionCount then magnitude
  else magnitude % f.fractionCount + f.fractionCount

/-- The exponent of two that goes with the significand of a finite magnitude. -/
def Format.exponent (f : Format) (magnitude : Nat) : Int :=
  if magnitude < f.fractionCount then f.leastExponent - f.fractionBits
  else (magnitude / f.fractionCount : Nat) - f.bias - f.fractionBits

/-! ## Rounding -/

/-- The quotient of two numbers, rounded to nearest with ties to even. -/
def roundedQuotient (num den : Nat) : Nat :=
  let q := num / den
  let r := num % den
  if 2 * r < den then q else if den < 2 * r then q + 1 else q + q % 2

/-- A ratio scaled by a power: `num / den · base ^ k` as numerator and
    denominator. -/
def scaledRatio (base : Nat) (num den : Nat) (k : Int) : Nat × Nat :=
  (num * Nat.pow base k.toNat, den * Nat.pow base (-k).toNat)

/-- The greatest exponent of two that a positive ratio reaches. -/
def binaryExponent (num den : Nat) : Int :=
  let e : Int := (num.log2 : Int) - den.log2
  let (n, d) := scaledRatio 2 num den (-e)
  if n < d then e - 1 else e

/-- The magnitude nearest to `num / den`, ties to the even one. A ratio beyond
    the finite values rounds to infinity. -/
def Format.round (f : Format) (num den : Nat) : Nat :=
  if num = 0 then 0
  else
    let e := max (binaryExponent num den) f.leastExponent
    let (n, d) := scaledRatio 2 num den (f.fractionBits - e)
    min ((e + f.bias - 1).toNat * f.fractionCount + roundedQuotient n d) f.infinity

/-- A finite magnitude as a ratio. -/
def Format.ratio (f : Format) (magnitude : Nat) : Nat × Nat :=
  scaledRatio 2 (f.significand magnitude) 1 (f.exponent magnitude)

/-- A magnitude of one format in another: rounded if finite, and infinity or
    not a number as before. -/
def Format.convert (source target : Format) (magnitude : Nat) : Nat :=
  if magnitude < source.infinity then
    let (n, d) := source.ratio magnitude
    target.round n d
  else if magnitude = source.infinity then target.infinity
  else target.notANumber

/-! ## Doubles -/

/-- A 64 bit floating point number, by its bits (`f64`). -/
structure Double where
  bits : UInt64
  deriving DecidableEq

namespace Double

/-- The number with the given sign and magnitude. -/
def ofParts (negative : Bool) (magnitude : Nat) : Double :=
  ⟨UInt64.ofNat (magnitude + if negative then Format.double.signBit else 0)⟩

/-- Whether the sign bit is set. -/
def isNegative (x : Double) : Bool := decide (Format.double.signBit ≤ x.bits.toNat)

/-- The bits without the sign. -/
def magnitude (x : Double) : Nat := x.bits.toNat % Format.double.signBit

/-- Whether the number is finite. -/
def isFinite (x : Double) : Bool := decide (x.magnitude < Format.double.infinity)

/-- Whether the bits are not a number. -/
def isNaN (x : Double) : Bool := decide (Format.double.infinity < x.magnitude)

/-- Not a number. -/
def nan : Double := ofParts false Format.double.notANumber

/-- Infinity of either sign. -/
def infinity (negative : Bool) : Double := ofParts negative Format.double.infinity

/-- The number nearest to a ratio with the given sign. -/
def ofRatio (negative : Bool) (num den : Nat) : Double :=
  ofParts negative (Format.double.round num den)

/-- The number nearest to an integer. -/
def ofInt (n : Int) : Double := ofRatio (decide (n < 0)) n.natAbs 1

end Double

/-! ## Singles -/

/-- A 32 bit floating point number, by its bits (`f32`). -/
structure Single where
  bits : UInt32
  deriving DecidableEq

namespace Single

/-- The number with the given sign and magnitude. -/
def ofParts (negative : Bool) (magnitude : Nat) : Single :=
  ⟨UInt32.ofNat (magnitude + if negative then Format.single.signBit else 0)⟩

/-- Whether the sign bit is set. -/
def isNegative (x : Single) : Bool := decide (Format.single.signBit ≤ x.bits.toNat)

/-- The bits without the sign. -/
def magnitude (x : Single) : Nat := x.bits.toNat % Format.single.signBit

/-- Whether the bits are not a number. -/
def isNaN (x : Single) : Bool := decide (Format.single.infinity < x.magnitude)

/-- The number nearest to a ratio with the given sign. -/
def ofRatio (negative : Bool) (num den : Nat) : Single :=
  ofParts negative (Format.single.round num den)

/-- The number nearest to an integer. -/
def ofInt (n : Int) : Single := ofRatio (decide (n < 0)) n.natAbs 1

/-- The double of the same value. -/
def toDouble (x : Single) : Double :=
  .ofParts x.isNegative (Format.single.convert Format.double x.magnitude)

end Single

/-- The single nearest to a double (`as f32`). -/
def Double.toSingle (x : Double) : Single :=
  .ofParts x.isNegative (Format.double.convert Format.single x.magnitude)

end Bindery.Number
