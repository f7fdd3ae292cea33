/-!
# Numerals

Decimal and hexadecimal numerals over lists of characters.

* `decimal`: the digits of a natural number, without leading zeros.
* `readDecimal?`: the number a nonempty list of digits denotes.
* `signed`: the numeral of an integer.
* `hexByte`: two hexadecimal digits of a byte.
-/

namespace Bindery.Text

/-! ## Decimal -/

/-- The digit for a value below ten. -/
def digitChar (d : Nat) : Char := Char.ofNat (48 + d)

/-- The value of a decimal digit. -/
def digitValue? (c : Char) : Option Nat :=
  if 48 ≤ c.toNat ∧ c.toNat ≤ 57 then some (c.toNat - 48) else none

/-- Whether a character is one of the ten decimal digits. -/
def isDigit (c : Char) : Bool := (digitValue? c).isSome

/-- The decimal digits of `n`, the most significant one first. -/
def decimal (n : Nat) : List Char :=
  if n < 10 then [digitChar n] else decimal (n / 10) ++ [digitChar (n % 10)]
termination_by n

/-- A numeral of a few digits denotes a small number. -/
theorem lt_pow_length_decimal (n : Nat) : n < Nat.pow 10 (decimal n).length := by
  fun_induction decimal n with
  | case1 n small => exact small
  | case2 n large ih =>
    rw [List.length_append, List.length_singleton]
    show n < Nat.pow 10 (decimal (n / 10)).length * 10
    omega

/-- The decimal digits of `n` behind as many zeros as a width of `width` asks
    for. -/
def decimalPadded (width n : Nat) : List Char :=
  List.replicate (width - (decimal n).length) '0' ++ decimal n

/-- Continues the number `acc` by the digits of a list. -/
def readDigits? (acc : Nat) : List Char → Option Nat
  | [] => some acc
  | c :: rest =>
    match digitValue? c with
    | some d => readDigits? (10 * acc + d) rest
    | none => none

/-- The number a nonempty list of decimal digits denotes. -/
def readDecimal? : List Char → Option Nat
  | [] => none
  | cs => readDigits? 0 cs

/-- The numeral of an integer: digits, behind a minus sign for a negative one. -/
def signed : Int → List Char
  | .ofNat n => decimal n
  | .negSucc n => '-' :: decimal (n + 1)

/-- The integer a list of digits behind an optional sign denotes. -/
def readSigned? : List Char → Option Int
  | '-' :: rest => (readDecimal? rest).map fun n => -(n : Int)
  | '+' :: rest => (readDecimal? rest).map fun n => (n : Int)
  | cs => (readDecimal? cs).map fun n => (n : Int)

/-- The natural number a list of digits behind an optional plus sign denotes. -/
def readUnsigned? : List Char → Option Nat
  | '+' :: rest => readDecimal? rest
  | cs => readDecimal? cs

/-- A natural number as text. -/
def ofNat (n : Nat) : String := String.ofList (decimal n)

/-- An integer as text. -/
def ofInt (n : Int) : String := String.ofList (signed n)

/-! ## Hexadecimal -/

/-- The lower case hexadecimal digit for a value below sixteen. -/
def hexDigit (d : Nat) : Char :=
  if d < 10 then Char.ofNat (48 + d) else Char.ofNat (87 + d)

/-- The upper case hexadecimal digit for a value below sixteen. -/
def hexDigitUpper (d : Nat) : Char :=
  if d < 10 then Char.ofNat (48 + d) else Char.ofNat (55 + d)

/-- The value of a hexadecimal digit of either case. -/
def hexValue? (c : Char) : Option Nat :=
  if 48 ≤ c.toNat ∧ c.toNat ≤ 57 then some (c.toNat - 48)
  else if 97 ≤ c.toNat ∧ c.toNat ≤ 102 then some (c.toNat - 87)
  else if 65 ≤ c.toNat ∧ c.toNat ≤ 70 then some (c.toNat - 55)
  else none

/-- The last `width` lower case hexadecimal digits of `n`. -/
def hex : Nat → Nat → List Char
  | 0, _ => []
  | width + 1, n => hex width (n / 16) ++ [hexDigit (n % 16)]

/-- A byte as two upper case hexadecimal digits. -/
def hexByte (b : UInt8) : List Char := [hexDigitUpper (b.toNat / 16), hexDigitUpper (b.toNat % 16)]

end Bindery.Text
