import Bindery.Schema.Registry

/-!
# Table creation

The `CREATE TABLE` statement of a registered table: a line per column, the
primary key, and a foreign key for each column that refers to another. Foreign
keys name the table and column they refer to as the database knows them, so
their targets have to be registered.

* `Table.creation`: the parts of the statement, or the first dangling reference.
* `Table.createSql`: its text.
* `Registry.createAll`: the statements of all tables with columns, by name.
-/

namespace Bindery

/-! ## Parts of the statement -/

/-- A foreign key line, by names in the database (in `create_table`). -/
structure ForeignKeyLine where
  column : String
  table : String
  target : String
  deriving DecidableEq

/-- The parts of a table creation, by names in the database (in `create_table`). -/
structure Creation where
  table : String
  columns : List Column
  primaryKey : List String
  foreignKeys : List ForeignKeyLine

/-- The foreign key line of a column, if it refers to another (in `create_table`). -/
def Column.foreignKeyLine (r : Registry) (c : Column) : Except Fault (Option ForeignKeyLine) :=
  match c.references with
  | none => .ok none
  | some target => do
    let remote ← r.get target.table
    let column ← remote.column target.column
    return some ⟨c.sqlName, remote.sqlName, column.sqlName⟩

/-- The parts of the creation of a table (in `create_table`). -/
def Table.creation (r : Registry) (t : Table) : Except Fault Creation :=
  if t.isGhost then .error (.emptyTable t.name)
  else do
    let foreignKeys ← t.columns.mapM (Column.foreignKeyLine r)
    return {
      table := t.sqlName
      columns := t.columns
      primaryKey := (t.columns.filter (·.type.primaryKey)).map (·.sqlName)
      foreignKeys := foreignKeys.filterMap id }

/-! ## Text -/

/-- The default that a column line declares (in `column_definition`). A dialect that
    takes no expression as a default leaves a computed one to the statements that
    insert. -/
def Column.declaredDefault? (d : Dialect) (c : Column) : Option DefaultValue :=
  match c.default with
  | some value =>
    if !value.isDynamic || d.expressionDefaults then some value
    else if c.type.nullable then some .null
    else none
  | none => if c.type.nullable then some .null else none

/-- The line of a column: name, type and modifiers (`column_definition`). -/
def Column.line (d : Dialect) (c : Column) : String :=
  let t := c.type
  String.intercalate " "
    ([d.quote c.sqlName, d.columnType t.scalar]
      ++ (if t.unsigned && t.scalar.isInteger && d.supportsUnsigned then ["UNSIGNED"] else [])
      ++ [if t.nullable then "NULL" else "NOT NULL"]
      ++ (match c.declaredDefault? d with
          | some value => ["DEFAULT " ++ value.sql d]
          | none => [])
      ++ (if t.autoIncrement then [d.autoIncrement] else []))

/-- The line of a primary key; none for a table without one (in `create_table`). -/
def primaryKeyLine (d : Dialect) : List String → List String
  | [] => []
  | names => ["PRIMARY KEY (" ++ String.intercalate ", " (names.map d.quote) ++ ")"]

/-- The line of a foreign key (in `create_table`). -/
def ForeignKeyLine.line (d : Dialect) (k : ForeignKeyLine) : String :=
  "FOREIGN KEY (" ++ d.quote k.column ++ ") REFERENCES " ++ d.quote k.table ++ " ("
    ++ d.quote k.target ++ ")"

/-- The text of a table creation (in `create_table`). -/
def Creation.sql (d : Dialect) (c : Creation) : String :=
  let lines := c.columns.map (Column.line d) ++ primaryKeyLine d c.primaryKey
    ++ c.foreignKeys.map (ForeignKeyLine.line d)
  "CREATE TABLE " ++ d.quote c.table ++ " (\n    " ++ String.intercalate ",\n    " lines ++ "\n)"

/-- The `CREATE TABLE` statement of a table (`create_table`). -/
def Table.createSql (r : Registry) (d : Dialect) (t : Table) : Except Fault String :=
  (t.creation r).map (Creation.sql d)

/-- The statements of all tables with columns, in the order of their names
    (`create_tables`). -/
def Registry.createAll (r : Registry) (d : Dialect) : Except Fault (List String) :=
  (r.tables.filter (!·.isGhost)).mapM (Table.createSql r d)

end Bindery
