import Bindery.Text.Numeral

/-!
# Column types

The scalar types of columns and the flags that complete them.
-/

namespace Bindery

/-- A scalar type (`ScalarType`). The lengths of character types are in characters. -/
inductive ScalarType where
  | bigInt
  | int
  | smallInt
  | tinyInt
  | double
  | float
  | bool
  | varChar (length : UInt32)
  | char (length : UInt32)
  | text
  | date
  | time
  | dateTime
  | blob
  deriving DecidableEq

/-- Whether values of the type are integers (`ScalarType::is_integer`). -/
def ScalarType.isInteger : ScalarType → Bool
  | .bigInt | .int | .smallInt | .tinyInt => true
  | _ => false

/-- Whether values of the type are character strings (`ScalarType::is_text`). -/
def ScalarType.isText : ScalarType → Bool
  | .varChar _ | .char _ | .text => true
  | _ => false

/-- The type of a column, parameter or result field (`ColumnType`). -/
structure ColumnType where
  scalar : ScalarType
  /-- No negative integers. -/
  unsigned : Bool := false
  /-- Null is a value. -/
  nullable : Bool := false
  /-- Part of the primary key. -/
  primaryKey : Bool := false
  /-- Numbered by the database. -/
  autoIncrement : Bool := false
  deriving DecidableEq

/-- The type without what only concerns the column: parameters are compared by it
    (`ColumnType::value_type`). -/
def ColumnType.valueType (t : ColumnType) : ColumnType :=
  { t with primaryKey := false, autoIncrement := false }

/-- The type of row counts, generated keys and page bounds. -/
def ColumnType.count : ColumnType := { scalar := .bigInt, unsigned := true }

end Bindery
