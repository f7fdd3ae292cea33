import Bindery.Action.Compiled
import Bindery.Statement.Union
import Bindery.Statement.Write

/-!
# Prepared actions

An action without its text: the statement is a list of pieces, and all the rest is
that of the compiled action. No dialect is needed up to here, and `Action.compile`
gives the same with the text of a dialect.

* `Action.prepare`: the prepared action.
* `Prepared.render`: the compiled action, with its text for a dialect.
-/

namespace Bindery

/-- A compiled action before its text is written. -/
structure Prepared where
  name : String
  table : String
  kind : ActionKind
  statement : Statement
  shape : Option Shape
  /-- The parameters that wrappers fix, the innermost first. -/
  fixed : List (String × Value)

/-- The kind, statement and shape of rows selected by a draft. -/
def prepareRows (kind : ActionKind) (draft : Draft (List Output)) :
    Except Fault (ActionKind × Statement × Option Shape) := do
  let (outputs, statement) ← draft.settle
  return (kind, statement, some (.ofOutputs outputs))

/-- The kind, statement and shape of a task on a table (`compile_action` in pieces). -/
def Task.prepare (naming : Naming) (table : Table) :
    Task → Except Fault (ActionKind × Statement × Option Shape)
  | .select s => prepareRows (.ofSelect s.mode) (s.write naming table)
  | .union u => prepareRows (.ofUnion u.mode) (u.write naming)
  | .insert i => do
    let statement ← i.settle table
    return (.insert (i.fetchId.getD table.autoIncrementColumn?.isSome), statement, none)
  | .update u => do return (.update u.expect, ← u.settle table, none)
  | .delete d => do return (.delete d.expect, ← d.settle table, none)

/-- The action compiled but for its text. -/
def Action.prepare (naming : Naming) : Action → Except Fault Prepared
  | .perform name table task => do
    let (kind, statement, shape) ← task.prepare naming table
    return { name, table := table.name, kind, statement, shape, fixed := [] }
  | .wrap name table inner args => do
    let p ← inner.prepare naming
    let fixed ← fixArguments (p.statement.bindings.map (·.name)) p.fixed args
    return { p with name, table := table.name, fixed }

/-- The compiled action with its text for a dialect. -/
def Prepared.render (d : Dialect) (p : Prepared) : Compiled :=
  { name := p.name, table := p.table, kind := p.kind, sql := p.statement.sql d
    params := p.statement.bindings, shape := p.shape, fixed := p.fixed }

end Bindery
