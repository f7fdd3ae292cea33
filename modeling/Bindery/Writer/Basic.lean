import Bindery.Fault
import Bindery.Scope
import Bindery.Shape

/-!
# Writing for a dialect

A writer is handed a dialect and writes SQL front to back. Next to the text it keeps
the parameters behind the placeholders: a parameter is recorded in the step that
writes its placeholder, so the two stay in the same order, and it is refused if it
has another type than the first parameter of its name.

* `SqlWriter.push`, `SqlWriter.param`: what extends the text and the parameters.
* `SqlWriter.append`: the text and the parameters of another writer.
* `SqlWriter.whereClause`, `SqlWriter.orderBy`, `SqlWriter.paginate`: clauses.
-/

namespace Bindery

/-- Text of SQL, and the parameters behind its placeholders in order (`CompiledSql`). -/
structure Written where
  sql : String := ""
  params : List Binding := []
  deriving DecidableEq

/-- A step of a writer: it goes on from what is written so far, or ends with a fault
    (`SqlWriter`). -/
abbrev SqlWriter := StateT Written (Except Fault)

/-- The SQL of a column: its name, behind the label of its table if there are joins
    (`AliasMap::column_sql`). -/
def Scope.columnSql (d : Dialect) (s : Scope) (c : ColumnRef) : Except Fault String := do
  let column ← s.column c
  let name := d.quote column.sqlName
  if s.hasJoins then
    let seat ← s.seat c
    return d.quote seat.label ++ "." ++ name
  else
    return name

/-- What the keys of an order may refer to besides outputs (`OrderScope`). -/
inductive OrderScope where
  /-- The columns of a select. -/
  | select (s : Scope)
  /-- The columns that outputs of a union show. -/
  | union

/-- The parameter for the size of a page (in `SqlWriter::paginate`). -/
def limitParam : Param := ⟨"limit", .count⟩

/-- The parameter for the number of rows before a page (in `SqlWriter::paginate`). -/
def offsetParam : Param := ⟨"offset", .count⟩

namespace SqlWriter

/-! ## Text and parameters -/

/-- Writes text (`SqlWriter::push`). -/
def push (text : String) : SqlWriter Unit :=
  modify fun w => { w with sql := w.sql ++ text }

/-- Records a parameter, unless it has another type than the first of its name
    (`SqlWriter::record`). -/
def record (b : Binding) : SqlWriter Unit := fun w =>
  if b.conflicts w.params then .error (.conflictingParam b.name)
  else .ok ((), { w with params := w.params ++ [b] })

/-- Writes what another writer wrote, with its parameters (`SqlWriter::append`). -/
def append (other : Written) : SqlWriter Unit := do
  push other.sql
  other.params.forM record

/-- Writes what several steps write, with text between every two. -/
def separated (separator : String) : List (SqlWriter Unit) → SqlWriter Unit
  | [] => pure ()
  | [w] => w
  | w :: rest => do
    w
    push separator
    separated separator rest

/-! ## Columns and conditions -/

variable (d : Dialect)

/-- Writes a name between quotes (`SqlWriter::quoted`). -/
def quoted (name : String) : SqlWriter Unit := push (d.quote name)

/-- Records a parameter and writes its placeholder (`SqlWriter::param`). -/
def param (p : Param) (origin : Origin) : SqlWriter Unit := do
  record (p.bind origin)
  push d.placeholder

/-- Writes a column (`SqlWriter::column`). -/
def column (s : Scope) (c : ColumnRef) : SqlWriter Unit := do
  let sql ← s.columnSql d c
  push sql

/-- Writes a part of a fragment (in `SqlWriter::fragment`). -/
def part (s : Scope) : FragmentPart → SqlWriter Unit
  | .raw sql => push sql
  | .column c => column d s c
  | .param p => param d p .condition

/-- Writes a fragment, part by part (`SqlWriter::fragment`). -/
def fragment (s : Scope) (f : Fragment) : SqlWriter Unit := f.parts.forM (part d s)

/-- Writes a side of a comparison (`SqlWriter::operand`). -/
def operand (s : Scope) : Operand → SqlWriter Unit
  | .column c => column d s c
  | .param p => param d p .condition
  | .literal v => push v.literal
  | .raw sql => push sql

/-- Writes the right side of a comparison, if there is one
    (in `SqlWriter::condition`). -/
def rightSide (s : Scope) : Option Operand → SqlWriter Unit
  | none => pure ()
  | some right => do
    push " "
    operand d s right

mutual

/-- Writes a condition (`SqlWriter::condition`). -/
def condition (s : Scope) : Condition → SqlWriter Unit
  | .compare left op right => do
    operand d s left
    push " "
    push op.sql
    rightSide d s right
  | .fragment f => fragment d s f
  | .group connective cs => do
    push "("
    conditions s connective cs
    push ")"

/-- Writes conditions with a connective between every two (`SqlWriter::conditions`). -/
def conditions (s : Scope) (connective : Connective) : List Condition → SqlWriter Unit
  | [] => pure ()
  | [c] => condition s c
  | c :: next :: rest => do
    condition s c
    push connective.sql
    conditions s connective (next :: rest)

end

/-- Writes a `WHERE` clause, or nothing without conditions (`SqlWriter::where_clause`). -/
def whereClause (s : Scope) (f : Filter) : SqlWriter Unit :=
  if f.isEmpty then pure ()
  else do
    push " WHERE "
    conditions d s f.connective f.conditions

/-! ## Orders and pages -/

/-- Writes an output as an order key (in `SqlWriter::order_by`). -/
def outputKey (o : Output String) : OrderScope → SqlWriter Unit
  | .select _ => if o.named then quoted d o.name else push o.expression
  | .union => quoted d o.name

/-- Writes what an order key refers to (in `SqlWriter::order_by`). -/
def orderTarget (outputs : List (Output String)) (scope : OrderScope) :
    OrderTarget → SqlWriter Unit
  | .output name =>
    match findOutput? outputs name with
    | some o => outputKey d o scope
    | none => throw (.unknownOrderKey name)
  | .column c =>
    match scope with
    | .select s => column d s c
    | .union =>
      match outputs.find? (·.source == some c) with
      | some o => quoted d o.name
      | none => throw (.unknownOrderKey c.column)
  | .raw sql => push sql

/-- Writes an order key (in `SqlWriter::order_by`). -/
def orderKey (outputs : List (Output String)) (scope : OrderScope) (k : OrderKey) :
    SqlWriter Unit := do
  orderTarget d outputs scope k.target
  if k.descending then push " DESC"

/-- Writes an `ORDER BY` clause, or nothing without keys (`SqlWriter::order_by`). -/
def orderBy (outputs : List (Output String)) (scope : OrderScope) : List OrderKey → SqlWriter Unit
  | [] => pure ()
  | keys => do
    push " ORDER BY "
    separated ", " (keys.map (orderKey d outputs scope))

/-- Writes the bounds of a page (`SqlWriter::paginate`). -/
def paginate : SqlWriter Unit := do
  push " LIMIT "
  param d limitParam .pagination
  push " OFFSET "
  param d offsetParam .pagination

end SqlWriter

end Bindery
