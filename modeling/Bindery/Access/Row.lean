import Bindery.Access.Error
import Bindery.Access.HostType

/-!
# Rows

A fetched row has one value per selected column. Columns are read by position,
one at a time or all as the fields of a record.

* `Row.get`: a column as a host value.
* `Row.record`: a row as a record; the width is checked before the fields.
-/

namespace Bindery

/-- A fetched row (`Row`). -/
structure Row where
  values : List Value
  deriving DecidableEq

/-- The values of a record with the given field types. -/
def Record : List HostType → Type
  | [] => Unit
  | t :: rest => t.Carrier × Record rest

namespace Row

/-- The number of columns (`Row::len`). -/
def width (r : Row) : Nat := r.values.length

/-- The value of a column (`Row::value`). -/
def value (r : Row) (index : Nat) : Except AccessError Value :=
  match r.values[index]? with
  | some v => .ok v
  | none => .error (.columnIndex index r.width)

/-- A column as a host value (`Row::get`). -/
def get (r : Row) (t : HostType) (index : Nat) : Except AccessError t.Carrier := do
  let v ← r.value index
  match t.decode? v with
  | some x => .ok x
  | none => .error (.decode index t.label v.kind)

/-- Checks the number of columns (`Row::expect_columns`). -/
def expectColumns (r : Row) (expected : Nat) : Except AccessError Unit :=
  if r.width = expected then .ok () else .error (.columnCount expected r.width)

/-- The columns from an index on as fields (in `derive_from_row_impl`). -/
def fieldsFrom (r : Row) (index : Nat) : (ts : List HostType) → Except AccessError (Record ts)
  | [] => .ok ()
  | t :: rest => do
    let x ← r.get t index
    return (x, ← r.fieldsFrom (index + 1) rest)

/-- A row as a record (`FromRow::from_row`, as `derive_from_row_impl` writes it). -/
def record (r : Row) (ts : List HostType) : Except AccessError (Record ts) := do
  r.expectColumns ts.length
  r.fieldsFrom 0 ts

end Row

end Bindery
