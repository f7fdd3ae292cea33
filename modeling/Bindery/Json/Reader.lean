import Bindery.Json.Basic
import Bindery.Number.Reading

/-!
# Reading JSON

A strict reader: no comments, trailing commas, leading zeros, raw control
characters or text behind the document.

* `Json.read?`: the document a text denotes.
-/

namespace Bindery

open Bindery.Text Number

/-! ## Strings -/

/-- The blanks of JSON. -/
def Json.isSpace (c : Char) : Bool := c == ' ' || c == '\n' || c == '\t' || c == '\r'

/-- A text without the JSON blanks it starts with. -/
def Json.skipSpace (cs : List Char) : List Char := cs.dropWhile Json.isSpace

/-- The character that a backslash and a letter stand for. -/
def Json.escaped? (c : Char) : Option Nat :=
  if c = '"' ∨ c = '\\' ∨ c = '/' then some c.toNat
  else if c = 'b' then some 8
  else if c = 'f' then some 12
  else if c = 'n' then some 10
  else if c = 'r' then some 13
  else if c = 't' then some 9
  else none

/-- The number that four hexadecimal digits stand for. -/
def Json.hexUnit? (a b c d : Char) : Option Nat := do
  let a ← hexValue? a
  let b ← hexValue? b
  let c ← hexValue? c
  let d ← hexValue? d
  return ((a * 16 + b) * 16 + c) * 16 + d

/-- The codes of a string up to its closing quote, and the text behind. A raw
    character gives its code point, an escape the unit it names. -/
def Json.readCodes? : List Char → Option (List Nat × List Char)
  | [] => none
  | '\\' :: 'u' :: a :: b :: c :: d :: rest => do
    let unit ← Json.hexUnit? a b c d
    let (codes, rest) ← Json.readCodes? rest
    return (unit :: codes, rest)
  | '\\' :: e :: rest => do
    let code ← Json.escaped? e
    let (codes, rest) ← Json.readCodes? rest
    return (code :: codes, rest)
  | c :: rest =>
    if c = '"' then some ([], rest)
    else if c = '\\' ∨ c.toNat < 32 then none
    else do
      let (codes, rest) ← Json.readCodes? rest
      return (c.toNat :: codes, rest)

/-- Whether a code is the first half of a surrogate pair. -/
def Json.isHighSurrogate (n : Nat) : Bool := decide (0xD800 ≤ n) && decide (n ≤ 0xDBFF)

/-- Whether a code is the second half of a surrogate pair. -/
def Json.isLowSurrogate (n : Nat) : Bool := decide (0xDC00 ≤ n) && decide (n ≤ 0xDFFF)

/-- The characters that codes stand for; none if a surrogate has no partner. -/
def Json.pairCodes? : List Nat → Option (List Char)
  | [] => some []
  | [n] => if Json.isHighSurrogate n || Json.isLowSurrogate n then none else some [Char.ofNat n]
  | n :: m :: rest =>
    if Json.isHighSurrogate n then
      if Json.isLowSurrogate m then
        (Json.pairCodes? rest).map
          (Char.ofNat (0x10000 + (n - 0xD800) * 0x400 + (m - 0xDC00)) :: ·)
      else none
    else if Json.isLowSurrogate n then none
    else (Json.pairCodes? (m :: rest)).map (Char.ofNat n :: ·)

/-- A string from behind its opening quote: its text, if it has one, and the
    text behind. -/
def Json.readString? (cs : List Char) : Option (Option String × List Char) :=
  (Json.readCodes? cs).map fun (codes, rest) => ((Json.pairCodes? codes).map String.ofList, rest)

/-! ## Numbers -/

/-- The greatest significand kept while digits are read. -/
def Json.significandLimit : Nat := 18446744073709551615

/-- Continues a significand by digits as long as it stays within the limit, and
    counts the digits taken. -/
def Json.takeDigits (significand taken : Nat) : List Char → Nat × Nat
  | [] => (significand, taken)
  | c :: rest =>
    let next := 10 * significand + (digitValue? c).getD 0
    if next ≤ Json.significandLimit then Json.takeDigits next (taken + 1) rest
    else (significand, taken)

/-- A number with a fraction or an exponent, or of too many digits: digits
    beyond the limit of the significand only shift the decimal point or are
    dropped. -/
def Json.realOf (negative : Bool) (whole fraction : List Char) (exponent : Int) : JsonNumber :=
  let (s, taken) := Json.takeDigits 0 0 whole
  let (s, shift) := Json.takeDigits s 0 fraction
  match scaled? s ((whole.length - taken : Nat) - (shift : Int) + exponent) with
  | some magnitude => .real (.ofParts negative magnitude)
  | none => .huge

/-- A number without fraction and exponent. Minus zero is a double. -/
def Json.integerOf (negative : Bool) (whole : List Char) : JsonNumber :=
  let n := (readDecimal? whole).getD 0
  if negative then
    if 0 < n ∧ n ≤ 9223372036854775808 then .int (-(n : Int))
    else if n ≤ Json.significandLimit then .real (.ofRatio true n 1)
    else Json.realOf true whole [] 0
  else if n ≤ Json.significandLimit then .int n
  else Json.realOf false whole [] 0

/-- The digits of a whole part: a zero alone, or digits that start with none. -/
def Json.readWhole? (cs : List Char) : Option (List Char × List Char) :=
  let digits := cs.takeWhile isDigit
  if digits = [] ∨ (digits.head? = some '0' ∧ digits.length ≠ 1) then none
  else some (digits, cs.dropWhile isDigit)

/-- A fraction, if there is one. -/
def Json.readFraction? : List Char → Option (Option (List Char) × List Char)
  | '.' :: rest =>
    let digits := rest.takeWhile isDigit
    if digits = [] then none else some (some digits, rest.dropWhile isDigit)
  | cs => some (none, cs)

/-- An exponent, if there is one. -/
def Json.readPower? : List Char → Option (Option Int × List Char)
  | [] => some (none, [])
  | c :: rest =>
    if c = 'e' ∨ c = 'E' then
      let (negative, rest) := takeSign rest
      let digits := rest.takeWhile isDigit
      (readDecimal? digits).map fun n =>
        (some (if negative then -(n : Int) else n), rest.dropWhile isDigit)
    else some (none, c :: rest)

/-- A number and the text behind it. -/
def Json.readNumber? (cs : List Char) : Option (JsonNumber × List Char) := do
  let (negative, cs) := match cs with
    | '-' :: rest => (true, rest)
    | cs => (false, cs)
  let (whole, cs) ← Json.readWhole? cs
  let (fraction, cs) ← Json.readFraction? cs
  let (power, cs) ← Json.readPower? cs
  match fraction, power with
  | none, none => return (Json.integerOf negative whole, cs)
  | _, _ => return (Json.realOf negative whole (fraction.getD []) (power.getD 0), cs)

/-! ## Documents -/

/-- The text behind a word, if a text starts with it. -/
def Json.behind? (word : List Char) (cs : List Char) : Option (List Char) :=
  if word.isPrefixOf cs then some (cs.drop word.length) else none

mutual

/-- A value without blanks before it, and the text behind. The depth of nesting
    and the number of items are bounded by `fuel`. -/
def Json.readValue? : Nat → List Char → Option (Json × List Char)
  | 0, _ => none
  | fuel + 1, cs =>
    match cs with
    | [] => none
    | c :: rest =>
      if c = '"' then (Json.readString? rest).map fun (s, rest) => (.string s, rest)
      else if c = '[' then
        match Json.skipSpace rest with
        | ']' :: rest => some (.array [], rest)
        | rest => (Json.readItems? fuel rest).map fun (items, rest) => (.array items, rest)
      else if c = '\x7b' then
        match Json.skipSpace rest with
        | '\x7d' :: rest => some (.object [], rest)
        | rest => (Json.readMembers? fuel rest).map fun (members, rest) => (.object members, rest)
      else if c = 'n' then (Json.behind? ['u', 'l', 'l'] rest).map fun rest => (.null, rest)
      else if c = 't' then (Json.behind? ['r', 'u', 'e'] rest).map fun rest => (.bool true, rest)
      else if c = 'f' then
        (Json.behind? ['a', 'l', 's', 'e'] rest).map fun rest => (.bool false, rest)
      else (Json.readNumber? cs).map fun (n, rest) => (.number n, rest)

/-- Array items without blanks before them, up to the closing bracket. -/
def Json.readItems? : Nat → List Char → Option (List Json × List Char)
  | 0, _ => none
  | fuel + 1, cs => do
    let (item, rest) ← Json.readValue? fuel cs
    match Json.skipSpace rest with
    | ']' :: rest => return ([item], rest)
    | ',' :: rest =>
      let (items, rest) ← Json.readItems? fuel (Json.skipSpace rest)
      return (item :: items, rest)
    | _ => none

/-- Object members without blanks before them, up to the closing brace. -/
def Json.readMembers? : Nat → List Char → Option (List (Option String × Json) × List Char)
  | 0, _ => none
  | fuel + 1, cs =>
    match cs with
    | '"' :: rest => do
      let (key, rest) ← Json.readString? rest
      match Json.skipSpace rest with
      | ':' :: rest =>
        let (value, rest) ← Json.readValue? fuel (Json.skipSpace rest)
        match Json.skipSpace rest with
        | '\x7d' :: rest => return ([(key, value)], rest)
        | ',' :: rest =>
          let (members, rest) ← Json.readMembers? fuel (Json.skipSpace rest)
          return ((key, value) :: members, rest)
        | _ => none
      | _ => none
    | _ => none

end

/-- The document a text denotes (`serde_json::from_str`). -/
def Json.read? (s : String) : Option Json :=
  match Json.readValue? (s.length + 1) (Json.skipSpace s.toList) with
  | some (j, rest) => if Json.skipSpace rest = [] then some j else none
  | none => none

end Bindery
