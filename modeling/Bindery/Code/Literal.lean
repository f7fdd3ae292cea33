import Bindery.Value.Basic

/-!
# Literals of emitted code

String literals, and the expressions that denote SQL values.
-/

namespace Bindery.Code

open Number (Layout)

/-- A text with another text in the place of each occurrence of a character. -/
def replaceChar (cs : List Char) (c : Char) (text : List Char) : List Char :=
  cs.flatMap fun x => if x = c then text else [x]

/-- The characters with an escape, in the order in which they are replaced. The
    backslash comes first, as the escapes of the others hold one. -/
def escapes : List (Char × List Char) :=
  [('\\', ['\\', '\\']), ('"', ['\\', '"']), ('\n', ['\\', 'n']), ('\r', ['\\', 'r']),
   ('\t', ['\\', 't'])]

/-- A text inside a string literal: one character after the other is replaced by its
    escape in the whole text (`escape_str`). -/
def escape (s : String) : String :=
  String.ofList (escapes.foldl (fun cs e => replaceChar cs e.1 e.2) s.toList)

/-- A string literal. -/
def stringLiteral (s : String) : String := "\"" ++ escape s ++ "\""

/-- Doubles in emitted code: positional from 1e-4 to 1e16, and always with a point
    or an exponent (the `Debug` of `f64`). -/
def layout : Layout where
  leastPositional := some (-4)
  greatestPositional := some 15
  pointZero := true
  plusSign := false
  tie := .up
  infinity := "f64::INFINITY"
  negativeInfinity := "f64::NEG_INFINITY"
  notANumber := "f64::NAN"

/-- The keyword of a truth value. -/
def boolLiteral (b : Bool) : String := if b then "true" else "false"

/-- The expression that denotes an SQL value (`value_literal`). -/
def valueLiteral : Value → String
  | .null => "SqlValue::Null"
  | .bool b => "SqlValue::Bool(" ++ boolLiteral b ++ ")"
  | .int n => "SqlValue::Int(" ++ Text.ofInt n.toInt ++ ")"
  | .float x => "SqlValue::Float(" ++ layout.text x ++ ")"
  | .text s => "SqlValue::Text(String::from(" ++ stringLiteral s ++ "))"
  | .blob bytes =>
    "SqlValue::Blob(vec![" ++ String.intercalate ", " (bytes.map fun b => Text.ofNat b.toNat) ++ "])"

end Bindery.Code
