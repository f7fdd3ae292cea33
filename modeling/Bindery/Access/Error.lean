import Bindery.Fault

/-!
# Access errors

What can go wrong when a binding runs.
-/

namespace Bindery

/-- An error of a binding or a routine (`DalError`). Columns are counted from zero. -/
inductive AccessError where
  /-- The database refused, for the cause it reports. -/
  | database (cause : String)
  /-- A single row was asked for and there is none. -/
  | notFound
  /-- A write affected another number of rows than it has to. -/
  | rowsAffectedMismatch (expected actual : UInt64)
  /-- An insert reported no generated key. -/
  | missingInsertId
  /-- An insert affected several rows, so that its key may be of any of them. -/
  | ambiguousInsertId (rows : UInt64)
  /-- A column does not fit the type it is read as. -/
  | decode (index : Nat) (expected found : String)
  /-- A row has no column at this index. -/
  | columnIndex (index width : Nat)
  /-- A row has another number of columns than the record read from it. -/
  | columnCount (expected found : Nat)
  /-- A variable is not set. -/
  | missingVariable (name : String)
  /-- A variable does not fit the type it is read as. -/
  | variableDecode (name expected found : String)
  deriving DecidableEq

open Text (ofNat) in
/-- The text of an error (the `Display` of `DalError`). -/
def AccessError.message : AccessError → String
  | .database cause => "database error: " ++ cause
  | .notFound => "no row found"
  | .rowsAffectedMismatch e a =>
    "expected " ++ ofNat e.toNat ++ " affected row(s), got " ++ ofNat a.toNat
  | .missingInsertId => "insert did not report a generated id"
  | .ambiguousInsertId rows =>
    "insert affected " ++ ofNat rows.toNat ++ " rows, the generated id is ambiguous"
  | .decode i e f => "cannot decode column " ++ ofNat i ++ " (" ++ f ++ ") as " ++ e
  | .columnIndex i w =>
    "column " ++ ofNat i ++ " out of range for a row of " ++ ofNat w ++ " columns"
  | .columnCount e f => "expected " ++ ofNat e ++ " columns, got " ++ ofNat f
  | .missingVariable n => "transaction variable " ++ inQuotes n ++ " is not set"
  | .variableDecode n e f => "cannot decode variable " ++ inQuotes n ++ " (" ++ f ++ ") as " ++ e

end Bindery
