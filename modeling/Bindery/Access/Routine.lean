import Bindery.Access.Fetch
import Bindery.Transaction.Plan

/-!
# Routines

A routine is a transaction as it runs: steps with values or variables as
arguments. All steps run between a begin and a commit; the first that fails
leads to a rollback, and its error is the error of the routine whatever comes of
the rollback.

* `Routine.run`: the run of a routine on a database.
* `Plan.routine`: the routine of a plan, given the arguments of the caller.
-/

namespace Bindery

/-! ## Variables -/

/-- The variables of a run and their values (`TxVars`). -/
structure Variables where
  entries : List (String × Value) := []
  deriving DecidableEq

namespace Variables

/-- The value of a variable (`TxVars::get`). -/
def get (vs : Variables) (name : String) : Except AccessError Value :=
  match vs.entries.lookup name with
  | some v => .ok v
  | none => .error (.missingVariable name)

/-- The variables without one of them. -/
def erase (vs : Variables) (name : String) : Variables := ⟨vs.entries.filter (·.1 != name)⟩

/-- The variables with a value for one of them (`TxVars::set`). -/
def set (vs : Variables) (name : String) (v : Value) : Variables :=
  ⟨(vs.erase name).entries ++ [(name, v)]⟩

/-- A variable as a host value, and the variables without it, which it is even if
    its value does not fit the type (`TxVars::take`). -/
def take (vs : Variables) (t : HostType) (name : String) :
    Except AccessError t.Carrier × Variables :=
  match vs.get name with
  | .error e => (.error e, vs)
  | .ok v =>
    match t.decode? v with
    | some x => (.ok x, vs.erase name)
    | none => (.error (.variableDecode name t.label v.kind), vs.erase name)

end Variables

/-! ## Steps -/

/-- An argument of a step (`TxArg`). -/
inductive RoutineArg where
  | value (v : Value)
  | var (name : String)
  deriving DecidableEq

/-- An export of a step into a variable (`Export`). -/
structure RoutineExport where
  source : ExportSource
  var : String
  deriving DecidableEq

/-- A step of a routine (`TxStep`). -/
structure RoutineStep where
  action : String
  sql : String
  kind : StepKind
  args : List RoutineArg := []
  exports : List RoutineExport := []
  deriving DecidableEq

/-- The step with the demand that one row is affected, which only a write takes
    (`TxStep::expect_one`). -/
def RoutineStep.expectingOne (s : RoutineStep) : RoutineStep :=
  match s.kind with
  | .exec _ => { s with kind := .exec true }
  | _ => s

/-- The value of an argument (in `TxStep::run`). -/
def RoutineArg.resolve (vars : Variables) : RoutineArg → Except AccessError Value
  | .value v => .ok v
  | .var name => vars.get name

/-- What a step looks at in the answer to its statement (in `TxStep::run`). -/
inductive Answer where
  | row (r : Row)
  | rows
  | report (r : ExecResult)
  deriving DecidableEq

/-- Runs the statement of a step (in `TxStep::run`, by `StepMode`). -/
def StepKind.run {σ : Type} (h : Handle σ) (sql : String) (params : List Value) :
    StepKind → Session σ Answer
  | .queryRow => .row <$> h.fetchOne sql params .ok
  | .query => (fun _ => .rows) <$> h.fetchAll sql params .ok
  | .exec expectOne => do
    let r ← h.exec sql params
    if expectOne then ExceptT.mk (pure r.checkOne)
    return .report r
  | .insert => .report <$> h.exec sql params

/-- The SQL value of a count or a generated key. -/
def countValue (n : UInt64) : Value := HostType.encode (.int .u64) (IntType.ofWord n)

/-- The value that an export takes from an answer (`export_value`). -/
def RoutineExport.value (a : Answer) (e : RoutineExport) : Except AccessError Value :=
  match e.source, a with
  | .column index, .row r => r.value index
  | .insertId, .report r => r.insertId.map countValue
  | .rowsAffected, .report r => .ok (countValue r.rowsAffected)
  | _, _ => .error (.missingVariable e.var)

/-- The variables after the exports of a step (in `TxStep::run`). -/
def exportAll (a : Answer) (vars : Variables) : List RoutineExport → Except AccessError Variables
  | [] => .ok vars
  | e :: rest => do exportAll a (vars.set e.var (← e.value a)) rest

/-- Runs a step and gives the variables after it (`TxStep::run`). A step whose
    arguments cannot be resolved runs no statement. -/
def RoutineStep.run {σ : Type} (h : Handle σ) (vars : Variables) (s : RoutineStep) :
    Session σ Variables := do
  let params ← ExceptT.mk (pure (s.args.mapM (RoutineArg.resolve vars)))
  let answer ← s.kind.run h s.sql params
  ExceptT.mk (pure (exportAll answer vars s.exports))

/-- Runs steps in order and gives the variables after the last (in `TxPlan::run`). -/
def runSteps {σ : Type} (h : Handle σ) (vars : Variables) : List RoutineStep → Session σ Variables
  | [] => return vars
  | s :: rest => do runSteps h (← s.run h vars) rest

/-! ## Routines -/

/-- A transaction as it runs (`TxPlan`). -/
structure Routine where
  name : String
  steps : List RoutineStep
  deriving DecidableEq

/-- Runs a routine on a database and gives its variables (`TxPlan::run`). -/
def Routine.run {σ : Type} (db : Database σ) (r : Routine) : Session σ Variables := fun s =>
  match db.begin s with
  | (.error e, s) => (.error e, s)
  | (.ok _, s) =>
    match runSteps db.toHandle {} r.steps s with
    | (.error e, s) => (.error e, (db.rollback s).2)
    | (.ok vars, s) =>
      match db.commit s with
      | (.error e, s) => (.error e, s)
      | (.ok _, s) => (.ok vars, s)

/-- An argument source as an argument, given the arguments of the caller
    (in `render_step`). -/
def ArgumentSource.resolve (caller : String → Value) : ArgumentSource → RoutineArg
  | .caller name => .value (caller name)
  | .var name => .var name
  | .literal v => .value v

/-- The routine of a plan, given the arguments of the caller (in `render`). -/
def Plan.routine (p : Plan) (caller : String → Value) : Routine where
  name := p.name
  steps := p.steps.map fun s =>
    { action := s.action, sql := s.sql, kind := s.kind
      args := s.args.map (·.resolve caller)
      exports := s.exports.map fun e => ⟨e.source, e.var⟩ }

end Bindery
