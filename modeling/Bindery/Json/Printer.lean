import Bindery.Json.Basic
import Bindery.Number.Layout

/-!
# JSON text

The compact text of a JSON document: no blanks, members in their order. In
strings only the quote, the backslash and control characters are escaped.
-/

namespace Bindery

open Bindery.Text Number

/-- Doubles in JSON text: positional from `0.00001` up to below `10 ^ 16`, a
    whole number keeps `.0`, exponents always have a sign, and what is not
    finite is null. -/
def Json.layout : Layout where
  leastPositional := some (-5)
  greatestPositional := some 15
  pointZero := true
  plusSign := true
  tie := .even
  infinity := "null"
  negativeInfinity := "null"
  notANumber := "null"

/-- One character inside a JSON string. -/
def Json.escapeChar (c : Char) : List Char :=
  if c = '"' then ['\\', '"']
  else if c = '\\' then ['\\', '\\']
  else if c.toNat = 8 then ['\\', 'b']
  else if c.toNat = 9 then ['\\', 't']
  else if c.toNat = 10 then ['\\', 'n']
  else if c.toNat = 12 then ['\\', 'f']
  else if c.toNat = 13 then ['\\', 'r']
  else if c.toNat < 32 then '\\' :: 'u' :: hex 4 c.toNat
  else [c]

/-- A text as a JSON string. -/
def Json.stringText (s : String) : List Char :=
  '"' :: (s.toList.flatMap Json.escapeChar ++ ['"'])

/-- The text of a number. -/
def JsonNumber.chars : JsonNumber → List Char
  | .int n => signed n
  | .real x => (Json.layout.text x).toList
  | .huge => "null".toList

mutual

/-- The characters of a document. -/
def Json.chars : Json → List Char
  | .null => "null".toList
  | .bool true => "true".toList
  | .bool false => "false".toList
  | .number n => n.chars
  | .string s => Json.stringText (s.getD "")
  | .array items => '[' :: Json.itemChars items
  | .object members => '\x7b' :: Json.memberChars members

/-- The characters of array items, up to the closing bracket. -/
def Json.itemChars : List Json → List Char
  | [] => [']']
  | [j] => j.chars ++ [']']
  | j :: rest => j.chars ++ ',' :: Json.itemChars rest

/-- The characters of object members, up to the closing brace. -/
def Json.memberChars : List (Option String × Json) → List Char
  | [] => ['\x7d']
  | [(k, j)] => Json.stringText (k.getD "") ++ ':' :: (j.chars ++ ['\x7d'])
  | (k, j) :: rest =>
    Json.stringText (k.getD "") ++ ':' :: (j.chars ++ ',' :: Json.memberChars rest)

end

/-- The text of a document (`serde_json::to_string`). -/
def Json.render (j : Json) : String := String.ofList j.chars

end Bindery
