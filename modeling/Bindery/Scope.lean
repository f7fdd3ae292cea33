import Bindery.Action.Basic
import Bindery.Name.Words
import Bindery.Options
import Bindery.Statement.Basic

/-!
# Scopes

The tables a select can refer to. Each sits under a label: with joins the main
table is `_main` and the n-th join is `_join_n`, without joins the table goes by
its own name and columns are not qualified.

* `Scope.resolve`: the scope of a main table and its joins.
* `Scope.column`: the column of a reference.
* `Scope.outputName`: the name derived for a column without one of its own.
-/

namespace Bindery

/-- A table in scope (an entry of `AliasMap`). -/
structure Seat where
  table : Table
  /-- The name the table has in the statement. -/
  label : String
  /-- The names of the joins that lead from the main table to this one. -/
  path : List String
  /-- Whether a left join lies on that path, so that a row may miss it. -/
  outer : Bool

/-- The tables of a select (`AliasMap`). -/
structure Scope where
  main : Seat
  joined : List Seat

/-- The label of the main table of a select with joins (`MAIN_ALIAS`). -/
def mainLabel : String := "_main"

/-- The label of a join, counted from one (in `AliasMap::resolve`). -/
def joinLabel (number : Nat) : String := "_join_" ++ Text.ofNat number

/-! ## Resolving joins -/

/-- The name of a join in derived names: its base column without a trailing `id`, or
    the table if nothing but `id` is left (in `AliasMap::resolve`). -/
def Join.pathName (j : Join) : String :=
  if Name.stem j.base.column = "id" then Name.snake j.table.name else Name.stem j.base.column

/-- The table on the base side of a join, which is the main table or an earlier join
    (in `AliasMap::resolve`). -/
def Join.parent (main : Seat) (earlier : List Seat) (j : Join) : Except Fault Seat :=
  match j.base.source with
  | .main => .ok main
  | .join index =>
    match earlier[index]? with
    | some seat => .ok seat
    | none => .error (.joinOutOfScope (earlier.length + 1) (index + 1))

/-- The place of a joined table behind earlier ones (in `AliasMap::resolve`). -/
def Join.seat (main : Seat) (earlier : List Seat) (j : Join) : Except Fault Seat := do
  let parent ← j.parent main earlier
  let _ ← parent.table.column j.base.column
  let _ ← j.table.column j.key
  return {
    table := j.table
    label := joinLabel (earlier.length + 1)
    path := parent.path ++ [j.pathName]
    outer := parent.outer || j.kind == .left }

/-- The places of joined tables behind earlier ones
    (the loop of `AliasMap::resolve`). -/
def seatJoins (main : Seat) (earlier : List Seat) : List Join → Except Fault (List Seat)
  | [] => .ok earlier
  | j :: rest => do
    let seat ← j.seat main earlier
    seatJoins main (earlier ++ [seat]) rest

/-- The fault of the first table whose database name is one of the labels
    (`AliasMap::check_shadowing`). -/
def shadowFault? (labels : List String) (tables : List Table) : Option Fault :=
  (tables.find? fun t => labels.contains t.sqlName).map fun t => .ambiguousAlias t.sqlName t.name

namespace Scope

/-- All tables in scope, the main one first. -/
def seats (s : Scope) : List Seat := s.main :: s.joined

/-- Whether the select has joins, so that columns are qualified
    (`AliasMap::has_joins`). -/
def hasJoins (s : Scope) : Bool := !s.joined.isEmpty

/-- The scope of a main table and its joins (`AliasMap::resolve`). -/
def resolve (main : Table) (joins : List Join) : Except Fault Scope :=
  if main.isGhost then .error (.emptyTable main.name)
  else match joins with
    | [] => .ok ⟨⟨main, main.sqlName, [], false⟩, []⟩
    | _ => do
      let seat : Seat := ⟨main, mainLabel, [], false⟩
      let scope : Scope := ⟨seat, ← seatJoins seat [] joins⟩
      match shadowFault? (scope.seats.map (·.label)) (scope.seats.map (·.table)) with
      | some fault => .error fault
      | none => .ok scope

/-! ## Looking up columns -/

/-- The table a reference points into (`AliasMap::slot`). -/
def seat (s : Scope) (c : ColumnRef) : Except Fault Seat :=
  match c.source with
  | .main => .ok s.main
  | .join index =>
    match s.joined[index]? with
    | some seat => .ok seat
    | none => .error (.undeclaredJoin (index + 1) c.column)

/-- The column a reference points at (`AliasMap::column`). -/
def column (s : Scope) (c : ColumnRef) : Except Fault Column := do
  let seat ← s.seat c
  seat.table.column c.column

/-- The pieces of a column: its name, behind the label of its table if there are
    joins (`AliasMap::column_sql` in pieces). -/
def columnPieces (s : Scope) (c : ColumnRef) : Except Fault (List Piece) := do
  let seat ← s.seat c
  let column ← seat.table.column c.column
  return if s.hasJoins then [.name seat.label, .text ".", .name column.sqlName]
    else [.name column.sqlName]

/-- Whether a row may miss the table of a reference (`AliasMap::is_outer`). -/
def isOuter (s : Scope) (c : ColumnRef) : Except Fault Bool := do
  return (← s.seat c).outer

/-- The name derived for a column: the main table if asked for, the joins that lead
    to the column, and the column (`AliasMap::derived_name`). -/
def outputName (s : Scope) (naming : Naming) (c : ColumnRef) : Except Fault String := do
  let seat ← s.seat c
  let column ← seat.table.column c.column
  let lead := if naming.tablePrefix then [Name.snake s.main.table.name] else []
  return naming.case.apply (String.intercalate "_" (lead ++ seat.path ++ [Name.snake column.name]))

end Scope

end Bindery
