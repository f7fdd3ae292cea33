import Bindery.Action.Compiled
import Bindery.Transaction.Basic

/-!
# Transaction plans

A plan is a checked transaction: the statement of every step, a source for each
of its placeholders, the variables it exports, and the arguments of the whole
with their types.

* `Transaction.plan`: the plan of a transaction, or the first fault in it.
-/

namespace Bindery

/-- How a step runs its statement and what it looks at in the answer (`StepKind`). -/
inductive StepKind where
  /-- Fetches one row. -/
  | queryRow
  /-- Reads all rows and drops them. -/
  | query
  /-- Executes a write; it may have to affect exactly one row. -/
  | exec (expectOne : Bool)
  /-- Executes an insert. -/
  | insert
  deriving DecidableEq

/-- How a step runs an action of a kind (`step_kind`). -/
def ActionKind.stepKind : ActionKind → StepKind
  | .selectOne | .selectField | .union true => .queryRow
  | .selectMany | .union false => .query
  | .insert _ => .insert
  | .update expect | .delete expect => .exec (expect == .exactlyOne)

/-- What a variable is taken from (`ExportSource`). -/
inductive ExportSource where
  /-- A column of the fetched row, counted from zero. -/
  | column (index : Nat)
  | insertId
  | rowsAffected
  deriving DecidableEq

/-- An export with the type of its variable (`PlannedExport`). -/
structure PlannedExport where
  source : ExportSource
  var : String
  type : ColumnType
  deriving DecidableEq

/-- A step with a source for each placeholder (`PlannedStep`). -/
structure PlannedStep where
  action : String
  sql : String
  kind : StepKind
  args : List ArgumentSource
  exports : List PlannedExport
  deriving DecidableEq

/-- A typed argument or variable of a transaction (`TransactionVar`). -/
structure Variable where
  name : String
  type : ColumnType
  deriving DecidableEq

/-- A transaction that passed its checks (`TransactionPlan`). -/
structure Plan where
  name : String
  table : String
  args : List Variable
  steps : List PlannedStep
  returns : List Variable
  deriving DecidableEq

/-! ## Arguments -/

/-- The arguments of a transaction with one more use of a name (`caller_arg`). -/
def useArgument (args : List Variable) (name : String) (type : ColumnType) :
    Except Fault (List Variable) :=
  match args.find? (·.name == name) with
  | some known => if known.type = type then .ok args else .error (.conflictingParam name)
  | none => .ok (args ++ [⟨name, type⟩])

/-- The source of a parameter that no wrapper fixes: the first binding the step has
    for it, or else the argument of its name (in `plan_transaction`). -/
def TransactionStep.source (s : TransactionStep) (param : String) : ArgumentSource :=
  (s.args.lookup param).getD (.caller param)

/-- The source of a placeholder, and the arguments of the transaction with the use
    of it (in `plan_transaction`). The step has the given number, and `vars` are
    exported before. -/
def planArgument (number : Nat) (step : TransactionStep) (c : Compiled) (vars args : List Variable)
    (b : Binding) : Except Fault (ArgumentSource × List Variable) :=
  match c.fixedValue? b.name with
  | some value => .ok (.literal value, args)
  | none =>
    match step.source b.name with
    | .literal value => .ok (.literal value, args)
    | .var var =>
      if vars.any (·.name == var) then .ok (.var var, args)
      else .error (.unboundVariable number var)
    | .caller name => (useArgument args name b.type).map (.caller name, ·)

/-- The sources of placeholders, and the arguments of the transaction with the uses
    of them (in `plan_transaction`). -/
def planArguments (number : Nat) (step : TransactionStep) (c : Compiled) (vars : List Variable)
    (args : List Variable) : List Binding → Except Fault (List ArgumentSource × List Variable)
  | [] => .ok ([], args)
  | b :: rest => do
    let (source, args) ← planArgument number step c vars args b
    let (sources, args) ← planArguments number step c vars args rest
    return (source :: sources, args)

/-- The fault of a step that binds what is not a parameter to be given
    (in `plan_transaction`). -/
def unknownArgument? (number : Nat) (step : TransactionStep) (c : Compiled) : Option Fault :=
  (step.args.find? fun arg => !c.arguments.any (·.name == arg.1)).map fun arg =>
    .unknownStepArgument number arg.1

/-! ## Exports -/

/-- The source and type of an output: a field of a row that is fetched alone, the
    key of an insert, or the row count of a write (`export_source`). -/
def Compiled.exportSource? (c : Compiled) : StepOutput → Option (ExportSource × ColumnType)
  | .field name =>
    match c.kind.stepKind, c.shape with
    | .queryRow, some shape => (shape.field? name).map fun (i, f) => (.column i, f.type)
    | _, _ => none
  | .insertId =>
    match c.kind.stepKind with
    | .insert => some (.insertId, .count)
    | _ => none
  | .rowsAffected =>
    match c.kind.stepKind with
    | .exec _ => some (.rowsAffected, .count)
    | _ => none

/-- The export of an output of a step (in `plan_transaction`). -/
def StepExport.plan (number : Nat) (c : Compiled) (e : StepExport) : Except Fault PlannedExport :=
  match c.exportSource? e.output with
  | some (source, type) => .ok ⟨source, e.var, type⟩
  | none => .error (.unknownStepOutput number e.output.label)

/-- The variables after an export: a variable of the same name is replaced
    (in `plan_transaction`). -/
def exportVariable (vars : List Variable) (e : PlannedExport) : List Variable :=
  vars.filter (·.name != e.var) ++ [⟨e.var, e.type⟩]

/-! ## Plans -/

/-- What the steps so far have made known (in `plan_transaction`). -/
structure PlanState where
  /-- The arguments of the transaction. -/
  args : List Variable := []
  /-- The variables that are exported. -/
  vars : List Variable := []

/-- The plan of a step, and what is known after it (in `plan_transaction`). -/
def TransactionStep.plan (o : Options) (number : Nat) (state : PlanState) (step : TransactionStep) :
    Except Fault (PlannedStep × PlanState) := do
  let c ← step.action.compile o
  if let some fault := unknownArgument? number step c then
    .error fault
  let (sources, args) ← planArguments number step c state.vars state.args c.params
  let exports ← step.exports.mapM (StepExport.plan number c)
  return (⟨c.name, c.sql, c.kind.stepKind, sources, exports⟩,
    ⟨args, exports.foldl exportVariable state.vars⟩)

/-- The plans of steps, the first of which has the given number
    (the loop of `plan_transaction`). -/
def planSteps (o : Options) (number : Nat) (state : PlanState) :
    List TransactionStep → Except Fault (List PlannedStep × PlanState)
  | [] => .ok ([], state)
  | step :: rest => do
    let (planned, state) ← step.plan o number state
    let (steps, state) ← planSteps o (number + 1) state rest
    return (planned :: steps, state)

/-- The variable that a transaction returns under a name (in `plan_transaction`). -/
def findReturn (vars : List Variable) (name : String) : Except Fault Variable :=
  match vars.find? (·.name == name) with
  | some v => .ok v
  | none => .error (.unknownReturn name)

/-- The plan of a transaction, or the first fault in it (`plan_transaction`). -/
def Transaction.plan (o : Options) (t : Transaction) : Except Fault Plan := do
  let (steps, state) ← planSteps o 1 {} t.steps
  let returns ← t.returns.mapM (findReturn state.vars)
  return { name := t.name, table := t.table.name, args := state.args, steps, returns }

end Bindery
