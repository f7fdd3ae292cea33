import Bindery.Action.Condition
import Bindery.Schema.Table

/-!
# Actions

An action is a named operation on the database that becomes one binding: a
task, or another action with some of its parameters fixed.
-/

namespace Bindery

/-! ## Selects and unions -/

/-- How unmatched rows of a join are treated (`JoinKind`). -/
inductive JoinKind where
  /-- They are dropped. -/
  | inner
  /-- They are kept, with nulls for the joined table. -/
  | left
  deriving DecidableEq

/-- The SQL of a join kind (`JoinKind::to_sql`). -/
def JoinKind.sql : JoinKind → String
  | .inner => "INNER JOIN"
  | .left => "LEFT JOIN"

/-- A table joined to a select (`JoinDef`). -/
structure Join where
  table : Table
  kind : JoinKind
  /-- The column on the side that is already in scope. -/
  base : ColumnRef
  /-- The column of the joined table that has to equal it. -/
  key : String

/-- An entry of a select list (`SelectColumn`). -/
inductive SelectColumn where
  /-- A column, under a name of its own if one is given. -/
  | column (c : ColumnRef) (outputName : Option String)
  /-- An expression. Without a type it has that of its only column. -/
  | expression (f : Fragment) (outputName : String) (type : Option ColumnType)
  deriving DecidableEq

/-- What rows are ordered by (`OrderTarget`). -/
inductive OrderTarget where
  /-- An output, in either spelling of its name. -/
  | output (name : String)
  | column (c : ColumnRef)
  /-- SQL taken as it is. -/
  | raw (sql : String)
  deriving DecidableEq

/-- A key of an order (`OrderKey`). -/
structure OrderKey where
  target : OrderTarget
  descending : Bool := false
  deriving DecidableEq

/-- What is expected of the rows of a select (`SelectMode`). -/
inductive SelectMode where
  /-- A single row. -/
  | one
  /-- Any number of rows. -/
  | many
  /-- A single value: one row of one column. -/
  | field
  deriving DecidableEq

/-- A select (`SelectDef`). Without columns it has all columns of its main table. -/
structure Select where
  mode : SelectMode := .many
  columns : List SelectColumn := []
  joins : List Join := []
  filter : Filter := {}
  orderBy : List OrderKey := []
  /-- Whether the rows are limited to a page. -/
  paginated : Bool := false

/-- Whether equal rows of two branches are merged (`UnionMode`). -/
inductive UnionMode where
  | union
  | unionAll
  deriving DecidableEq

/-- The SQL between two branches (`UnionMode::to_sql`). -/
def UnionMode.sql : UnionMode → String
  | .union => "UNION"
  | .unionAll => "UNION ALL"

/-- A branch of a union: a select on a table (`UnionBranch`). -/
structure UnionBranch where
  table : Table
  select : Select

/-- A union, with a mode between every two branches (`UnionDef`). -/
structure Union where
  branches : List UnionBranch := []
  modes : List UnionMode := []
  orderBy : List OrderKey := []
  mode : SelectMode := .many
  paginated : Bool := false

/-! ## Writes -/

/-- The value a column is set to (`SetValue`). -/
inductive SetValue where
  | param (p : Param)
  | fragment (f : Fragment)
  /-- The default of the column. -/
  | default
  deriving DecidableEq

/-- A column and the value it is set to (`Assignment`). -/
structure Assignment where
  column : String
  value : SetValue
  deriving DecidableEq

/-- How many rows a write has to affect (`RowExpectation`). -/
inductive RowExpectation where
  | any
  | exactlyOne
  deriving DecidableEq

/-- An insert of one row (`InsertDef`). -/
structure Insert where
  assignments : List Assignment := []
  /-- Whether columns without an assignment get their defaults. -/
  fillDefaults : Bool := false
  /-- Whether the generated key is wanted; if not said, it is wanted from a
      table that generates one. -/
  fetchId : Option Bool := none

/-- An update of the rows that pass a filter (`UpdateDef`). -/
structure Update where
  filter : Filter := {}
  assignments : List Assignment := []
  fillDefaults : Bool := false
  expect : RowExpectation := .any
  /-- Whether the filter may be empty. -/
  unrestricted : Bool := false

/-- A deletion of the rows that pass a filter (`DeleteDef`). -/
structure Delete where
  filter : Filter := {}
  expect : RowExpectation := .any
  /-- Whether the filter may be empty. -/
  unrestricted : Bool := false

/-! ## Actions -/

/-- What an action does (`ActionKind`). -/
inductive Task where
  | select (s : Select)
  | insert (i : Insert)
  | update (u : Update)
  | delete (d : Delete)
  | union (u : Union)

/-- A named operation of a table (`ActionDef`, `WrapDef`). -/
inductive Action where
  | perform (name : String) (table : Table) (task : Task)
  /-- Another action with values for some of its parameters. -/
  | wrap (name : String) (table : Table) (inner : Action) (args : List (String × Value))

/-- The name of an action. -/
def Action.name : Action → String
  | .perform name .. => name
  | .wrap name .. => name

/-- The table an action belongs to. -/
def Action.table : Action → Table
  | .perform _ table _ => table
  | .wrap _ table .. => table

end Bindery
