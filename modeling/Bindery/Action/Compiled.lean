import Bindery.Writer.Change
import Bindery.Writer.Select

/-!
# Compiled actions

An action compiles to the text of a statement with the parameters behind its
placeholders, the shape of its rows if it returns any, and the values that wrappers
fix. A wrapper compiles like the action it wraps, and fixes parameters of it.

* `Task.write`: the statement of a task, written for the options of a build.
* `Action.compile`: the compiled action.
-/

namespace Bindery

/-- What a compiled action returns (`BindingKind`). -/
inductive ActionKind where
  | selectOne
  | selectMany
  | selectField
  | insert (fetchId : Bool)
  | update (expect : RowExpectation)
  | delete (expect : RowExpectation)
  | union (singleRow : Bool)
  deriving DecidableEq

/-- Whether the action returns rows (`BindingKind::returns_rows`). -/
def ActionKind.returnsRows : ActionKind → Bool
  | .selectOne | .selectMany | .selectField | .union _ => true
  | .insert _ | .update _ | .delete _ => false

/-- The kind of a select (in `compile_action`). -/
def ActionKind.ofSelect : SelectMode → ActionKind
  | .one => .selectOne
  | .many => .selectMany
  | .field => .selectField

/-- The kind of a union (in `compile_action`). -/
def ActionKind.ofUnion : SelectMode → ActionKind
  | .one => .union true
  | .many => .union false
  | .field => .selectField

/-- A compiled action (`CompiledAction`). -/
structure Compiled where
  name : String
  table : String
  kind : ActionKind
  sql : String
  /-- The parameters behind the placeholders, in the order of the text. -/
  params : List Binding
  shape : Option Shape
  fixed : List (String × Value)

namespace Compiled

/-- The value that a wrapper fixes for a parameter (`CompiledAction::fixed_value`). -/
def fixedValue? (c : Compiled) (param : String) : Option Value := c.fixed.lookup param

/-- The parameters of the statement, each name once (`CompiledSql::arguments`). -/
def sqlArguments (c : Compiled) : List Binding := distinctBindings c.params

/-- The parameters that a caller gives, each name once (`CompiledAction::arguments`). -/
def arguments (c : Compiled) : List Binding :=
  c.sqlArguments.filter fun b => (c.fixedValue? b.name).isNone

end Compiled

/-! ## Compiling -/

/-- Writes the statement of a task on a table. The result is what the task returns and
    the shape of its rows (`compile_action`). -/
def Task.write (o : Options) (table : Table) : Task → SqlWriter (ActionKind × Option Shape)
  | .select s => do
    let outputs ← SqlWriter.select o.dialect o.naming table s
    return (.ofSelect s.mode, some (.ofOutputs outputs))
  | .union u => do
    let outputs ← SqlWriter.union o.dialect o.naming u
    return (.ofUnion u.mode, some (.ofOutputs outputs))
  | .insert i => do
    SqlWriter.insert o.dialect table i
    return (.insert (i.fetchId.getD table.autoIncrementColumn?.isSome), none)
  | .update u => do
    SqlWriter.update o.dialect table u
    return (.update u.expect, none)
  | .delete x => do
    SqlWriter.delete o.dialect table x
    return (.delete x.expect, none)

/-- Fixes parameters one by one: each has to be one of `params` that is not fixed
    yet (in `compile_wrap`). -/
def fixArguments (params : List String) (fixed : List (String × Value)) :
    List (String × Value) → Except Fault (List (String × Value))
  | [] => .ok fixed
  | (name, value) :: rest =>
    if params.contains name && !fixed.any (·.1 == name) then
      fixArguments params (fixed ++ [(name, value)]) rest
    else .error (.unknownWrapArgument name)

/-- The compiled action for the options of a build (`compile_action`, `compile_wrap`). -/
def Action.compile (o : Options) : Action → Except Fault Compiled
  | .perform name table task => do
    let ((kind, shape), written) ← (task.write o table).run {}
    return { name, table := table.name, kind, sql := written.sql, params := written.params, shape
             fixed := [] }
  | .wrap name table inner args => do
    let c ← inner.compile o
    let fixed ← fixArguments (c.params.map (·.name)) c.fixed args
    return { c with name, table := table.name, fixed }

end Bindery
