import Bindery.Statement.Order
import Bindery.Writer.Select

/-!
# The writing of selects

A select names an output whenever a reader could not tell the name from the
expression: with joins, under a name of its own, after a change to keep names
apart, or if the column goes by another name in the database. Expressions are
always named.

* `Select.write`: the draft of a select, with its outputs as result.
-/

namespace Bindery

open Draft (write fail)
open Name (Allocator)

/-- The output of a column (`write_column` in pieces). -/
def columnOutput (s : Scope) (naming : Naming) (names : Allocator) (c : ColumnRef)
    (outputName : Option String) : Except Fault (Output × Allocator) := do
  let column ← s.column c
  let expression ← s.columnPieces c
  let base ← match outputName with
    | some name => pure name
    | none => s.outputName naming c
  let outer ← s.isOuter c
  let ((name, renamed), names) := names.allocate base
  let named := s.hasJoins || outputName.isSome || renamed || name != column.sqlName
  return ({ name, expression, named, source := some c, type := column.type.valueType, outer }, names)

/-- The output of an expression (`write_column` in pieces). Its parameters are
    checked among themselves before they meet those of the rest of the statement. -/
def expressionOutput (s : Scope) (names : Allocator) (f : Fragment) (outputName : String)
    (type : Option ColumnType) : Except Fault (Output × Allocator) := do
  let single := f.singleColumn?
  let type ← expressionType s outputName single type
  let outer ← match single with
    | some c => s.isOuter c
    | none => pure false
  let (_, statement) ← (f.write s).settle
  let ((name, _), names) := names.allocate outputName
  return ({ name, expression := statement.pieces, named := true, source := single, type, outer },
    names)

/-- The output of an entry of a select list (`write_column` in pieces). -/
def SelectColumn.output (s : Scope) (naming : Naming) (names : Allocator) :
    SelectColumn → Except Fault (Output × Allocator)
  | .column c outputName => columnOutput s naming names c outputName
  | .expression f outputName type => expressionOutput s names f outputName type

/-- Writes a select list. -/
def writeSelectList (s : Scope) (naming : Naming) (names : Allocator) :
    List SelectColumn → Draft (List Output)
  | [] => pure []
  | c :: rest => do
    let (o, names) ← c.output s naming names
    write o.item
    if !rest.isEmpty then write [.text ", "]
    return o :: (← writeSelectList s naming names rest)

/-- Writes a join, counted from zero. -/
def Join.write (s : Scope) (index : Nat) (j : Join) : Draft Unit := do
  let remote := ColumnRef.ofJoin index j.key
  let seat ← s.seat remote
  Draft.write [.text " ", .text j.kind.sql, .text " ", .name j.table.sqlName, .text " AS ",
    .name seat.label, .text " ON "]
  s.writeColumn remote
  Draft.write [.text " = "]
  s.writeColumn j.base

/-- Writes joins, the first of which is the join of the given index. -/
def writeJoins (s : Scope) (index : Nat) : List Join → Draft Unit
  | [] => pure ()
  | j :: rest => do
    j.write s index
    writeJoins s (index + 1) rest

/-- Writes the tables of a select. -/
def Select.writeTables (s : Select) (scope : Scope) (main : Table) : Draft Unit := do
  Draft.write [.text " FROM ", .name main.sqlName]
  if scope.hasJoins then Draft.write [.text " AS ", .name scope.main.label]
  writeJoins scope 0 s.joins

/-- Writes a select on a table (`write_select` in pieces). -/
def Select.write (naming : Naming) (main : Table) (s : Select) : Draft (List Output) := do
  let scope ← Scope.resolve main s.joins
  let columns := s.effectiveColumns main
  checkArity s.mode columns.length
  Draft.write [.text "SELECT "]
  let outputs ← writeSelectList scope naming {} columns
  s.writeTables scope main
  s.filter.write scope
  writeOrder outputs (.select scope) s.orderBy
  writePage s.paginated
  return outputs

end Bindery
