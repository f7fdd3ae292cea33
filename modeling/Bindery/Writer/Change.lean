import Bindery.Writer.Basic

/-!
# Writing inserts, updates and deletions

The columns that are set are known before anything is written. Defaults are spelled
for the dialect, and only a statement that is written says which names its parameters
have, so defaults are checked against them last.

* `SqlWriter.insert`, `SqlWriter.update`, `SqlWriter.delete`: write the statements.
-/

namespace Bindery

/-- A column and the value it is set to (`Target`). -/
structure Target where
  column : Column
  value : SetValue

/-! ## Columns that are set -/

/-- The columns of assignments behind earlier ones (in `targets`). -/
def assignedTargets (table : Table) (earlier : List Target) :
    List Assignment → Except Fault (List Target)
  | [] => .ok earlier
  | a :: rest => do
    let column ← table.column a.column
    if earlier.any (·.column.name == column.name) then
      .error (.duplicateAssignment column.name)
    else assignedTargets table (earlier ++ [⟨column, a.value⟩]) rest

/-- The columns that get their defaults: those not assigned and not skipped
    (in `targets`). -/
def defaultTargets (table : Table) (assigned : List Target) (skip : Column → Bool) : List Target :=
  (table.columns.filter fun c => !skip c && !assigned.any (·.column.name == c.name)).map
    (⟨·, .default⟩)

/-- The columns that are set, with their values (`targets`). -/
def targets (table : Table) (assignments : List Assignment) (fillDefaults : Bool)
    (skip : Column → Bool) : Except Fault (List Target) := do
  let assigned ← assignedTargets table [] assignments
  let all := if fillDefaults then assigned ++ defaultTargets table assigned skip else assigned
  if all.isEmpty then .error .noAssignments else .ok all

/-- The fault of a column that gets its default although a parameter has its name
    (in `check_defaults`). -/
def shadowedDefault? (params : List String) (ts : List Target) : Option Fault :=
  (ts.find? fun t => t.value == .default && params.contains t.column.name).map fun t =>
    .defaultShadowsParam t.column.name t.column.name

/-- The fault of a statement that would touch every row unasked (in `write_update`,
    `write_delete`). -/
def checkRestricted (statement : String) (f : Filter) (unrestricted : Bool) : Except Fault Unit :=
  if f.isEmpty && !unrestricted then .error (.missingWhere statement) else .ok ()

/-! ## Statements -/

namespace SqlWriter

variable (d : Dialect)

/-- Writes the value that a column is set to (`write_value`). -/
def setValue (s : Scope) (t : Target) : SqlWriter Unit :=
  match t.value with
  | .param p => param d p .assignment
  | .fragment f => fragment d s f
  | .default =>
    match t.column.fallbackSql? d with
    | some sql => push sql
    | none => throw (.missingDefault t.column.name)

/-- Writes the assignment of a column (in `write_update`). -/
def assignment (s : Scope) (t : Target) : SqlWriter Unit := do
  column d s (.ofMain t.column.name)
  push " = "
  setValue d s t

/-- Refuses a column that gets its default although a parameter has its name
    (`check_defaults`). -/
def checkDefaults (ts : List Target) : SqlWriter Unit := fun w =>
  match shadowedDefault? (w.params.map (·.name)) ts with
  | some fault => .error fault
  | none => .ok ((), w)

/-- Writes an insert into a table (in `write_insert`). The columns that are set are
    the result. -/
def insertTargets (table : Table) (i : Insert) : SqlWriter (List Target) := do
  let scope ← Scope.resolve table []
  let ts ← targets table i.assignments i.fillDefaults (·.type.autoIncrement)
  push "INSERT INTO "
  quoted d table.sqlName
  push " ("
  separated ", " (ts.map fun t => quoted d t.column.sqlName)
  push ") VALUES ("
  separated ", " (ts.map (setValue d scope))
  push ")"
  return ts

/-- Writes an insert and checks its defaults (`write_insert`). -/
def insert (table : Table) (i : Insert) : SqlWriter Unit := do
  let ts ← insertTargets d table i
  checkDefaults ts

/-- Writes an update of a table (in `write_update`). The columns that are set are
    the result. -/
def updateTargets (table : Table) (u : Update) : SqlWriter (List Target) := do
  checkRestricted "UPDATE" u.filter u.unrestricted
  let scope ← Scope.resolve table []
  let ts ← targets table u.assignments u.fillDefaults (·.type.primaryKey)
  push "UPDATE "
  quoted d table.sqlName
  push " SET "
  separated ", " (ts.map (assignment d scope))
  whereClause d scope u.filter
  return ts

/-- Writes an update and checks its defaults (`write_update`). -/
def update (table : Table) (u : Update) : SqlWriter Unit := do
  let ts ← updateTargets d table u
  checkDefaults ts

/-- Writes a deletion from a table (`write_delete`). -/
def delete (table : Table) (x : Delete) : SqlWriter Unit := do
  checkRestricted "DELETE" x.filter x.unrestricted
  let scope ← Scope.resolve table []
  push "DELETE FROM "
  quoted d table.sqlName
  whereClause d scope x.filter

end SqlWriter

end Bindery
