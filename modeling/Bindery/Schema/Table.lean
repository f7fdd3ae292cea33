import Bindery.Fault
import Bindery.Schema.Column

/-!
# Tables

A table definition is checked once: its column names are pairwise different and
its defaults have an SQL spelling. A table without columns only owns actions.

* `TableSpec.build`: the table of a specification, or the first fault in it.
* `Table.column`: the column of a name, or the fault that there is none.
-/

namespace Bindery

/-- A table as it is specified (`TableBuilder`). -/
structure TableSpec where
  name : String
  databaseName : Option String := none
  columns : List Column := []
  deriving DecidableEq

/-- A table definition that passed its checks (`TableDef`). -/
@[ext]
structure Table where
  name : String
  databaseName : Option String
  columns : List Column
  /-- Column names are pairwise different. -/
  distinct : (columns.map (·.name)).Nodup
  /-- Defaults have an SQL spelling. -/
  finite : ∀ c ∈ columns, ∀ d ∈ c.default, d.isFinite = true

/-! ## Checking -/

/-- The first fault of columns that follow columns of the names `earlier`: a
    repeated name, then a default without a spelling (in `TableDef::try_from`). -/
def columnFault? (table : String) (earlier : List String) : List Column → Option Fault
  | [] => none
  | c :: rest =>
    if c.name ∈ earlier then some (.duplicateColumn table c.name)
    else if c.default.all (·.isFinite) then columnFault? table (earlier ++ [c.name]) rest
    else some (.nonFiniteDefault table c.name)

theorem columnFault?_eq_none {table : String} {earlier : List String} {columns : List Column}
    (h : columnFault? table earlier columns = none) :
    (columns.map (·.name)).Nodup ∧ (∀ c ∈ columns, c.name ∉ earlier) ∧
      ∀ c ∈ columns, ∀ d ∈ c.default, d.isFinite = true := by
  induction columns generalizing earlier with
  | nil => simp
  | cons c rest ih =>
    unfold columnFault? at h
    split at h
    · cases h
    · next fresh =>
      split at h
      · next finite =>
        obtain ⟨distinct, apart, rest_finite⟩ := ih h
        refine ⟨?_, ?_, ?_⟩
        · rw [List.map_cons, List.nodup_cons]
          refine ⟨fun member => ?_, distinct⟩
          obtain ⟨d, hd, name_eq⟩ := List.mem_map.1 member
          exact apart d hd (by simp [name_eq])
        · intro d hd
          rcases List.mem_cons.1 hd with rfl | hd
          · exact fresh
          · exact fun member => apart d hd (by simp [member])
        · intro d hd value hvalue
          rcases List.mem_cons.1 hd with rfl | hd
          · rw [Option.mem_def.1 hvalue] at finite
            simpa using finite
          · exact rest_finite d hd value hvalue
      · cases h

/-- The table of a specification, or the first fault in it (`TableDef::try_from`). -/
def TableSpec.build (s : TableSpec) : Except Fault Table :=
  match h : columnFault? s.name [] s.columns with
  | some fault => .error fault
  | none => .ok
    { name := s.name
      databaseName := s.databaseName
      columns := s.columns
      distinct := (columnFault?_eq_none h).1
      finite := (columnFault?_eq_none h).2.2 }

namespace Table

/-- The specification of a table (`TableBuilder::from`). -/
def spec (t : Table) : TableSpec := ⟨t.name, t.databaseName, t.columns⟩

/-- The name in the database (`TableDef::sql_name`). -/
def sqlName (t : Table) : String := t.databaseName.getD t.name

/-- Whether the table has no columns (`TableDef::is_ghost`). -/
def isGhost (t : Table) : Bool := t.columns.isEmpty

/-! ## Looking up columns -/

/-- The column of a name (`TableDef::column`). -/
def column? (t : Table) (name : String) : Option Column := t.columns.find? (·.name == name)

/-- The column of a name, or the fault that there is none
    (`TableDef::require_column`). -/
def column (t : Table) (name : String) : Except Fault Column :=
  match t.column? name with
  | some c => .ok c
  | none => .error (.unknownColumn t.name name)

/-- The first column that the database numbers (`TableDef::auto_increment_column`). -/
def autoIncrementColumn? (t : Table) : Option Column := t.columns.find? (·.type.autoIncrement)

end Table

end Bindery
