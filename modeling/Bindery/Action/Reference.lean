import Bindery.Schema.Column

/-!
# References

What the parts of a statement refer to: columns of the tables in scope, and
parameters that get their values when the statement runs. A fragment is SQL
written by hand with such references in it.
-/

namespace Bindery

/-- A table of a select: the main one, or a join counted from zero (`Source`). -/
inductive Source where
  | main
  | join (index : Nat)
  deriving DecidableEq

/-- A column of a table of a select, by its name in the model (`ColumnRef`). -/
structure ColumnRef where
  source : Source
  column : String
  deriving DecidableEq

/-- A column of the main table (`ColumnRef::main`). -/
def ColumnRef.ofMain (column : String) : ColumnRef := ⟨.main, column⟩

/-- A column of a joined table (`ColumnRef::joined`). -/
def ColumnRef.ofJoin (index : Nat) (column : String) : ColumnRef := ⟨.join index, column⟩

/-- A parameter of a statement (`ParamDef`). -/
structure Param where
  name : String
  type : ColumnType
  deriving DecidableEq

namespace Param

/-- A parameter for values of a column type (`ParamDef::new`). -/
def ofType (name : String) (type : ColumnType) : Param := ⟨name, type.valueType⟩

/-- The parameter for values of a column, named like it (`ParamDef::for_column`). -/
def ofColumn (c : Column) : Param := ofType c.name c.type

/-- The parameter under another name (`ParamDef::named`). -/
def named (p : Param) (name : String) : Param := { p with name }

/-- The parameter with null as a value (`ParamDef::nullable`). -/
def asNullable (p : Param) : Param := { p with type := { p.type with nullable := true } }

end Param

/-- A part of SQL written by hand (`FragmentPart`). -/
inductive FragmentPart where
  | raw (sql : String)
  | column (c : ColumnRef)
  | param (p : Param)
  deriving DecidableEq

/-- SQL written by hand, with columns and parameters in it (`SqlFragment`). -/
structure Fragment where
  parts : List FragmentPart := []
  deriving DecidableEq

/-- The columns of a fragment (in `SqlFragment::single_column`). -/
def Fragment.columns (f : Fragment) : List ColumnRef :=
  f.parts.filterMap fun
    | .column c => some c
    | _ => none

/-- The parameters of a fragment (in `SqlFragment::single_column`). -/
def Fragment.params (f : Fragment) : List Param :=
  f.parts.filterMap fun
    | .param p => some p
    | _ => none

/-- The column of a fragment that has one column and no parameter
    (`SqlFragment::single_column`). -/
def Fragment.singleColumn? (f : Fragment) : Option ColumnRef :=
  match f.columns, f.params with
  | [c], [] => some c
  | _, _ => none

end Bindery
