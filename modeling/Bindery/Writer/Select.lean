import Bindery.Name.Allocator
import Bindery.Writer.Basic

/-!
# Writing selects and unions

The columns of a select are written one by one, and each gives the output that a row
has for it. An expression and a branch of a union get writers of their own, whose text
and parameters are appended.

* `SqlWriter.select`: writes a select, with its outputs as result.
* `SqlWriter.union`: writes a union, with the outputs of its first branch as result.
-/

namespace Bindery

open Name (Allocator)

/-! ## What is selected -/

/-- The columns of a select: those listed, or else all of the main table
    (in `write_select`). -/
def Select.effectiveColumns (s : Select) (main : Table) : List SelectColumn :=
  if s.columns.isEmpty then main.columns.map fun c => .column (.ofMain c.name) none
  else s.columns

/-- The type of an expression: the one given, or else that of its only column
    (in `write_column`). -/
def expressionType (s : Scope) (name : String) (single : Option ColumnRef) :
    Option ColumnType → Except Fault ColumnType
  | some type => .ok type
  | none =>
    match single with
    | some c => (s.column c).map (·.type.valueType)
    | none => .error (.untypedExpression name)

/-- The fault of a select for a single value with another number of columns
    (in `write_select`, `write_union`). -/
def checkArity (mode : SelectMode) (count : Nat) : Except Fault Unit :=
  if mode = .field ∧ count ≠ 1 then .error (.fieldSelectArity count) else .ok ()

/-- An output together with that of a later branch in the same position
    (in `write_union`). -/
def Output.merge {ε : Type} (o later : Output ε) : Output ε :=
  { o with outer := o.outer || later.outer || later.type.nullable }

/-- The branches of a union behind the first, each with the mode before it
    (in `write_union`). -/
def Union.split (u : Union) : Except Fault (UnionBranch × List (UnionMode × UnionBranch)) :=
  match u.branches with
  | first :: second :: rest =>
    if u.modes.length = rest.length + 1 then .ok (first, u.modes.zip (second :: rest))
    else .error (.malformedUnion u.branches.length u.modes.length)
  | _ => .error (.malformedUnion u.branches.length u.modes.length)

namespace SqlWriter

/-! ## Columns -/

/-- The name of a column before it is kept apart from others: its own, or the one
    derived for it (in `write_column`). -/
def baseName (s : Scope) (naming : Naming) (c : ColumnRef) : Option String → Except Fault String
  | some name => .ok name
  | none => s.outputName naming c

/-- Whether a row may lack the table behind the only column of an expression
    (in `write_column`). -/
def singleOuter (s : Scope) : Option ColumnRef → Except Fault Bool
  | some c => s.isOuter c
  | none => .ok false

variable (d : Dialect)

/-- Writes a column of a select list, named unless a reader can tell its name
    (`write_column`). -/
def columnOutput (s : Scope) (naming : Naming) (names : Allocator) (c : ColumnRef)
    (outputName : Option String) : SqlWriter (Output String × Allocator) := do
  let column ← s.column c
  let sql ← s.columnSql d c
  let base ← baseName s naming c outputName
  let ((name, renamed), names) := names.allocate base
  let named := s.hasJoins || outputName.isSome || renamed || name != column.sqlName
  push (if named then d.asAlias sql name else sql)
  let outer ← s.isOuter c
  return ({ name, expression := sql, named, source := some c, type := column.type.valueType, outer },
    names)

/-- Writes an expression of a select list, which has a writer of its own
    (`write_column`). -/
def expressionOutput (s : Scope) (names : Allocator) (f : Fragment) (outputName : String)
    (type : Option ColumnType) : SqlWriter (Output String × Allocator) := do
  let single := f.singleColumn?
  let type ← expressionType s outputName single type
  let outer ← singleOuter s single
  let (_, written) ← (fragment d s f).run {}
  let ((name, _), names) := names.allocate outputName
  append written
  push " AS "
  quoted d name
  return ({ name, expression := written.sql, named := true, source := single, type, outer }, names)

/-- Writes an entry of a select list (`write_column`). -/
def selectColumn (s : Scope) (naming : Naming) (names : Allocator) :
    SelectColumn → SqlWriter (Output String × Allocator)
  | .column c outputName => columnOutput d s naming names c outputName
  | .expression f outputName type => expressionOutput d s names f outputName type

/-- Writes a select list behind names that are used (in `write_select`). -/
def selectList (s : Scope) (naming : Naming) (names : Allocator) :
    List SelectColumn → SqlWriter (List (Output String))
  | [] => pure []
  | c :: rest => do
    let (o, names) ← selectColumn d s naming names c
    if !rest.isEmpty then push ", "
    let others ← selectList s naming names rest
    return o :: others

/-! ## Selects -/

/-- Writes a join, counted from zero (in `write_select`). -/
def join (s : Scope) (index : Nat) (j : Join) : SqlWriter Unit := do
  let remote := ColumnRef.ofJoin index j.key
  push " "
  push j.kind.sql
  push " "
  quoted d j.table.sqlName
  push " AS "
  let seat ← s.seat remote
  quoted d seat.label
  push " ON "
  column d s remote
  push " = "
  column d s j.base

/-- Writes joins, the first of which is the join of the given index
    (in `write_select`). -/
def joins (s : Scope) (index : Nat) : List Join → SqlWriter Unit
  | [] => pure ()
  | j :: rest => do
    join d s index j
    joins s (index + 1) rest

/-- Writes the tables of a select (in `write_select`). -/
def tables (scope : Scope) (main : Table) (js : List Join) : SqlWriter Unit := do
  push " FROM "
  quoted d main.sqlName
  if scope.hasJoins then
    push " AS "
    quoted d mainLabel
  joins d scope 0 js

/-- Writes a select on a table (`write_select`). -/
def select (naming : Naming) (main : Table) (s : Select) : SqlWriter (List (Output String)) := do
  let scope ← Scope.resolve main s.joins
  let columns := s.effectiveColumns main
  checkArity s.mode columns.length
  push "SELECT "
  let outputs ← selectList d scope naming {} columns
  tables d scope main s.joins
  whereClause d scope s.filter
  orderBy d outputs (.select scope) s.orderBy
  if s.paginated then paginate d
  return outputs

/-! ## Unions -/

/-- Writes a branch, which has a writer of its own, between parentheses
    (in `write_union`). -/
def branch (naming : Naming) (b : UnionBranch) : SqlWriter (List (Output String)) := do
  let (outputs, written) ← (select d naming b.table b.select).run {}
  push "("
  append written
  push ")"
  return outputs

/-- Writes later branches, each behind the mode that joins it to those before, and
    merges their outputs (in `write_union`). The first of them has the given number.
    -/
def branches (naming : Naming) (outputs : List (Output String)) (number : Nat) :
    List (UnionMode × UnionBranch) → SqlWriter (List (Output String))
  | [] => pure outputs
  | (mode, b) :: rest => do
    push " "
    push mode.sql
    push " "
    let later ← branch d naming b
    if later.length ≠ outputs.length then
      throw (.unionShapeMismatch number outputs.length later.length)
    branches naming (List.zipWith Output.merge outputs later) (number + 1) rest

/-- Writes a union (`write_union`). -/
def union (naming : Naming) (u : Union) : SqlWriter (List (Output String)) := do
  let (first, later) ← u.split
  let outputs ← branch d naming first
  let outputs ← branches d naming outputs 2 later
  checkArity u.mode outputs.length
  orderBy d outputs .union u.orderBy
  if u.paginated then paginate d
  return outputs

end SqlWriter

end Bindery
