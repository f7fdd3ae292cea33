import Bindery.Statement.Filter
import Bindery.Writer.Change

/-!
# The writing of inserts, updates and deletions

An insert or update sets the columns that are assigned and, if asked, the other
columns to their defaults. A column that gets its default must not share its
name with a parameter, which would be taken for its value.

* `Insert.write`, `Update.write`, `Delete.write`: the drafts.
* `Insert.settle`, `Update.settle`, `Delete.settle`: the statements.
-/

namespace Bindery

open Draft (write fail)

/-- Writes the value of a column (`write_value` in pieces). -/
def Target.writeValue (s : Scope) (t : Target) : Draft Unit :=
  match t.value with
  | .param p => p.write .assignment
  | .fragment f => f.write s
  | .default =>
    match t.column.fallback? with
    | some value => write [.fallback value]
    | none => fail (.missingDefault t.column.name)

/-- The statement of a draft that sets columns, unless a parameter has the name of a
    column that gets its default (`check_defaults`). -/
def settleTargets (draft : Draft (List Target)) : Except Fault Statement := do
  let (ts, statement) ← draft.settle
  match shadowedDefault? (statement.bindings.map (·.name)) ts with
  | some fault => .error fault
  | none => .ok statement

/-! ## Statements -/

/-- Writes an insert into a table (`write_insert` in pieces). -/
def Insert.write (table : Table) (i : Insert) : Draft (List Target) := do
  let scope ← Scope.resolve table []
  let ts ← targets table i.assignments i.fillDefaults (·.type.autoIncrement)
  Draft.write [.text "INSERT INTO ", .name table.sqlName, .text " ("]
  Draft.separated ", " (ts.map fun t => Draft.write [.name t.column.sqlName])
  Draft.write [.text ") VALUES ("]
  Draft.separated ", " (ts.map (Target.writeValue scope))
  Draft.write [.text ")"]
  return ts

/-- The statement of an insert into a table. -/
def Insert.settle (table : Table) (i : Insert) : Except Fault Statement :=
  settleTargets (i.write table)

/-- Writes the assignment of a column. -/
def Target.writeAssignment (s : Scope) (t : Target) : Draft Unit := do
  s.writeColumn (.ofMain t.column.name)
  write [.text " = "]
  t.writeValue s

/-- Writes an update of a table (`write_update` in pieces). -/
def Update.write (table : Table) (u : Update) : Draft (List Target) := do
  checkRestricted "UPDATE" u.filter u.unrestricted
  let scope ← Scope.resolve table []
  let ts ← targets table u.assignments u.fillDefaults (·.type.primaryKey)
  Draft.write [.text "UPDATE ", .name table.sqlName, .text " SET "]
  Draft.separated ", " (ts.map (Target.writeAssignment scope))
  u.filter.write scope
  return ts

/-- The statement of an update of a table. -/
def Update.settle (table : Table) (u : Update) : Except Fault Statement :=
  settleTargets (u.write table)

/-- Writes a deletion from a table (`write_delete` in pieces). -/
def Delete.write (table : Table) (d : Delete) : Draft Unit := do
  checkRestricted "DELETE" d.filter d.unrestricted
  let scope ← Scope.resolve table []
  Draft.write [.text "DELETE FROM ", .name table.sqlName]
  d.filter.write scope

/-- The statement of a deletion from a table. -/
def Delete.settle (table : Table) (d : Delete) : Except Fault Statement :=
  (d.write table).settle.map (·.2)

end Bindery
