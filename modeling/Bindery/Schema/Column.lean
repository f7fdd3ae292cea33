import Bindery.Dialect
import Bindery.Value.Basic

/-!
# Columns

A column has a name in the model and may have another one in the database, a
type, a default and a foreign key target.

* `Column.fallback?`: the default that a column left out of an assignment gets.
-/

namespace Bindery

open Number (Double)

/-- The default of a column (`DefaultValue`). -/
inductive DefaultValue where
  | null
  | bool (b : Bool)
  | int (n : Int64)
  | float (x : Double)
  | string (s : String)
  /-- An SQL expression, taken as it is. -/
  | expression (sql : String)
  | currentDate
  | currentTime
  | currentDateTime
  deriving DecidableEq

/-- The SQL of a default (`DefaultValue::to_sql`). -/
def DefaultValue.sql (d : Dialect) : DefaultValue → String
  | .null => "NULL"
  | .bool b => Value.boolLiteral b
  | .int n => Text.ofInt n.toInt
  | .float x => Value.layout.text x
  | .string s => Value.stringLiteral s
  | .expression sql => sql
  | .currentDate => d.currentDate
  | .currentTime => d.currentTime
  | .currentDateTime => d.currentDateTime

/-- Whether the default is computed by the database when it is used. -/
def DefaultValue.isDynamic : DefaultValue → Bool
  | .expression _ | .currentDate | .currentTime | .currentDateTime => true
  | _ => false

/-- Whether the default has an SQL spelling: a float must be finite. -/
def DefaultValue.isFinite : DefaultValue → Bool
  | .float x => x.isFinite
  | _ => true

/-- The column a foreign key points at (`ForeignRef`). -/
structure ForeignKey where
  table : String
  column : String
  deriving DecidableEq

/-- A column of a table (`ColumnDef`). -/
structure Column where
  name : String
  /-- The name in the database, if it differs. -/
  databaseName : Option String := none
  type : ColumnType
  default : Option DefaultValue := none
  references : Option ForeignKey := none
  deriving DecidableEq

namespace Column

/-- The name in the database (`ColumnDef::sql_name`). -/
def sqlName (c : Column) : String := c.databaseName.getD c.name

/-- The default of a column that is given no value: the declared one, or null for a
    nullable column (in `ColumnDef::default_sql`). -/
def fallback? (c : Column) : Option DefaultValue :=
  c.default.or (if c.type.nullable then some .null else none)

/-- The SQL of the default of a column that is given no value
    (`ColumnDef::default_sql`). -/
def fallbackSql? (d : Dialect) (c : Column) : Option String := c.fallback?.map (·.sql d)

/-! ## Common columns -/

/-- A required column of a scalar type (`ColumnDef::new`). -/
def ofScalar (name : String) (scalar : ScalarType) : Column := { name, type := { scalar } }

/-- A column with an unsigned big integer that the database numbers, as primary key
    (`pk`). -/
def primaryKey (name : String) : Column :=
  { name, type := { ColumnType.count with primaryKey := true, autoIncrement := true } }

/-- A column with an unsigned big integer that refers to a column (`fk`). -/
def foreignKey (name table column : String) : Column :=
  { name, type := ColumnType.count, references := some ⟨table, column⟩ }

/-- The column with a name in the database (`ColumnDef::db_name`). -/
def withDatabaseName (c : Column) (name : String) : Column := { c with databaseName := some name }

/-- The column without negative values (`ColumnDef::unsigned`). -/
def asUnsigned (c : Column) : Column := { c with type := { c.type with unsigned := true } }

/-- The column with null as a value (`ColumnDef::nullable`). -/
def asNullable (c : Column) : Column := { c with type := { c.type with nullable := true } }

/-- The column as part of the primary key (`ColumnDef::primary_key`). -/
def asPrimaryKey (c : Column) : Column := { c with type := { c.type with primaryKey := true } }

/-- The column numbered by the database (`ColumnDef::auto_increment`). -/
def asAutoIncrement (c : Column) : Column :=
  { c with type := { c.type with autoIncrement := true } }

/-- The column with a default (`ColumnDef::default_value`). -/
def withDefault (c : Column) (value : DefaultValue) : Column := { c with default := some value }

/-- The column with a foreign key target (`ColumnDef::references`). -/
def withReference (c : Column) (table column : String) : Column :=
  { c with references := some ⟨table, column⟩ }

end Column

end Bindery
