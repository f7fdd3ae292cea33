import Bindery.Number.Layout
import Bindery.Text.Quoted

/-!
# SQL values

The values that reach a statement, bound to a placeholder or written into it as
a literal.

* `Value.literal`: the SQL literal of a value.
-/

namespace Bindery

open Bindery.Text Number

/-- A value of a database column or parameter (`SqlValue`). -/
inductive Value where
  | null
  | bool (b : Bool)
  | int (n : Int64)
  | float (x : Double)
  | text (s : String)
  | blob (bytes : List UInt8)
  deriving DecidableEq

/-- Doubles in SQL: always positional, and a whole number has no point
    (the `Display` of `f64`). -/
def Value.layout : Layout where
  leastPositional := none
  greatestPositional := none
  pointZero := false
  plusSign := false
  tie := .up
  infinity := "inf"
  negativeInfinity := "-inf"
  notANumber := "NaN"

/-- A text as a SQL string: between single quotes, a quote inside written twice
    (in `SqlValue::to_sql_inline`). -/
def Value.stringLiteral (s : String) : String := quoted '\'' s

/-- The literal of a truth value (in `SqlValue::to_sql_inline`). -/
def Value.boolLiteral (b : Bool) : String := if b then "TRUE" else "FALSE"

/-- The SQL literal of a value (`SqlValue::to_sql_inline`). -/
def Value.literal : Value → String
  | .null => "NULL"
  | .bool b => boolLiteral b
  | .int n => ofInt n.toInt
  | .float x => layout.text x
  | .text s => stringLiteral s
  | .blob bytes => "X'" ++ String.ofList (bytes.flatMap hexByte) ++ "'"

/-- Whether a value is null (`SqlValue::is_null`). -/
def Value.isNull : Value → Bool
  | .null => true
  | _ => false

/-- The word for the kind of a value in messages (`SqlValue::kind`). -/
def Value.kind : Value → String
  | .null => "null"
  | .bool _ => "bool"
  | .int _ => "int"
  | .float _ => "float"
  | .text _ => "text"
  | .blob _ => "blob"

end Bindery
