import Bindery.Code.Argument
import Bindery.Code.Literal
import Bindery.Code.TypeText

/-!
# Emitted methods and records

A method binds a compiled action or a planned transaction; a record holds a row
of an action. Both are data first and text at the end.

* `Method.ofCompiled`: the method of an action, and its record if it has one.
* `Method.ofPlan`: the method of a transaction.
* `Method.text`, `RecordType.text`: their text.
-/

namespace Bindery.Code

/-! ## Data -/

/-- The function of the runtime library that a binding calls. -/
inductive Helper where
  | fetchOne
  | fetchAll
  | fetchField
  | execInsert
  | execRowsAffected
  | execOne
  | exec
  deriving DecidableEq

/-- What a method returns. -/
inductive Returned where
  | unit
  /-- A row count or a generated key. -/
  | count
  | field (type : ColumnType)
  | record (name : String)
  | records (name : String)
  | variables (vars : List Variable)
  deriving DecidableEq

/-- An argument of a call: a literal, a variable of the transaction, or an
    argument of the method. -/
inductive CallArg where
  | literal (v : Value)
  | var (name : String)
  | argument (ident : String)
  deriving DecidableEq

/-- A step of a transaction as it is emitted. -/
structure StepCall where
  action : String
  sql : String
  kind : StepKind
  args : List CallArg
  exports : List PlannedExport
  deriving DecidableEq

/-- What a method does. -/
inductive Body where
  /-- Calls a helper on the handle. -/
  | call (helper : Helper) (sql : String) (args : List CallArg)
  /-- Runs a transaction. -/
  | transaction (steps : List StepCall)
  deriving DecidableEq

/-- A method. -/
structure Method where
  /-- The name of the action or transaction. -/
  name : String
  ident : String
  arguments : List Argument
  returned : Returned
  body : Body
  deriving DecidableEq

/-- A field of a record. -/
structure RecordField where
  source : String
  ident : String
  type : ColumnType
  deriving DecidableEq

/-- A record for the rows of an action. -/
structure RecordType where
  name : String
  fields : List RecordField
  deriving DecidableEq

/-! ## From actions and plans -/

/-- The fields of a record behind earlier ones (in `result_struct`). -/
def recordFieldsFrom (earlier : List RecordField) : List Field → Except Fault (List RecordField)
  | [] => .ok earlier
  | f :: rest => do
    let ident ← Name.identifier f.name
    match earlier.find? (·.ident == ident) with
    | some first => .error (.fieldCollision first.source f.name ident)
    | none => recordFieldsFrom (earlier ++ [⟨f.name, ident, f.type⟩]) rest

/-- The record for rows of a shape (`result_struct`). -/
def RecordType.ofShape (name : String) (s : Shape) : Except Fault RecordType := do
  return ⟨name, ← recordFieldsFrom [] s.fields⟩

/-- The helper and the result of a compiled action, and its record
    (in `GroupEmitter::action`). Without a shape there is nothing to read. -/
def interface (record : String) (kind : ActionKind) (shape : Option Shape) :
    Except Fault (Helper × Returned × Option RecordType) :=
  match kind, shape with
  | .selectField, some s =>
    .ok (.fetchField, (s.fields.head?.map fun f => .field f.type).getD .unit, none)
  | .selectOne, some s | .union true, some s => do
    return (.fetchOne, .record record, some (← RecordType.ofShape record s))
  | .selectMany, some s | .union false, some s => do
    return (.fetchAll, .records record, some (← RecordType.ofShape record s))
  | .selectOne, none | .selectMany, none | .selectField, none | .union _, none =>
    .ok (.exec, .unit, none)
  | .insert true, _ => .ok (.execInsert, .count, none)
  | .insert false, _ => .ok (.exec, .unit, none)
  | .update .exactlyOne, _ | .delete .exactlyOne, _ => .ok (.execOne, .unit, none)
  | .update .any, _ | .delete .any, _ => .ok (.execRowsAffected, .count, none)

/-- The handle of a method for an action (in `GroupEmitter::action`). -/
def queryHandle : String := "queryable"

/-- The handle of a method for a transaction (in `render`). -/
def databaseHandle : String := "db"

/-- The name of the record for the rows of an action (in `GroupEmitter::action`). -/
def recordName (table action : String) : Except Fault String := do
  return (← Name.typeName table) ++ (← Name.typeName action) ++ "Result"

/-- The argument of a call for a parameter of an action: the value that a wrapper
    fixes, or else an argument of the method (in `GroupEmitter::action`). -/
def callArg (c : Compiled) (args : List Argument) (param : String) : CallArg :=
  match c.fixedValue? param with
  | some v => .literal v
  | none => .argument (identifierOf args param)

/-- The method of a compiled action of a table, and the record for its rows
    (`GroupEmitter::action`). The identifier is that of the method. -/
def Method.ofCompiled (table ident : String) (c : Compiled) :
    Except Fault (Method × Option RecordType) := do
  let args ← claimArguments queryHandle (c.arguments.map fun b => ⟨b.name, b.type⟩)
  let (helper, returned, record) ← interface (← recordName table c.name) c.kind c.shape
  let values := c.params.map fun b => callArg c args b.name
  return (⟨c.name, ident, args, returned, .call helper c.sql values⟩, record)

/-- An argument source as the argument of a call (in `render_step`). -/
def stepArg (args : List Argument) : ArgumentSource → CallArg
  | .caller name => .argument (identifierOf args name)
  | .var name => .var name
  | .literal v => .literal v

/-- A planned step as it is emitted (in `render_step`). -/
def StepCall.ofPlanned (args : List Argument) (s : PlannedStep) : StepCall :=
  ⟨s.action, s.sql, s.kind, s.args.map (stepArg args), s.exports⟩

/-- The method of a planned transaction (`render`). -/
def Method.ofPlan (ident : String) (p : Plan) : Except Fault Method := do
  let args ← claimArguments databaseHandle p.args
  return ⟨p.name, ident, args, .variables p.returns,
    .transaction (p.steps.map (StepCall.ofPlanned args))⟩

/-! ## Text -/

/-- The name of a helper (in `GroupEmitter::action`). -/
def Helper.label : Helper → String
  | .fetchOne => "fetch_one"
  | .fetchAll => "fetch_all"
  | .fetchField => "fetch_field"
  | .execInsert => "exec_insert"
  | .execRowsAffected => "exec_rows_affected"
  | .execOne => "exec_one_row_affected"
  | .exec => "exec"

/-- The type of a variable or field (`value_type`). -/
def ownedType (runtime : String) (t : ColumnType) : String := t.hostType.ownedText runtime

/-- The type of several variables (in `render`). -/
def variablesType (runtime : String) : List Variable → String
  | [] => "()"
  | [v] => ownedType runtime v.type
  | vars => "(" ++ String.intercalate ", " (vars.map fun v => ownedType runtime v.type) ++ ")"

/-- The type that a method returns (in `GroupEmitter::action`, `render`). -/
def Returned.text (runtime : String) : Returned → String
  | .unit => "()"
  | .count => "u64"
  | .field t => ownedType runtime t
  | .record name => name
  | .records name => "Vec<" ++ name ++ ">"
  | .variables vars => variablesType runtime vars

/-- The line of an argument in a signature (in `GroupEmitter::action`, `render`). -/
def Argument.line (runtime : String) (a : Argument) : String :=
  "        " ++ a.ident ++ ": " ++ a.type.hostType.borrowedText runtime ++ ",\n"

/-- An argument of a call of a helper (in `GroupEmitter::action`). -/
def CallArg.valueText : CallArg → String
  | .literal v => valueLiteral v
  | .var name => stringLiteral name
  | .argument ident => ident ++ ".to_sql_value()"

/-- An argument of a step (in `render_step`). -/
def CallArg.stepText : CallArg → String
  | .literal v => "TxArg::Value(" ++ valueLiteral v ++ ")"
  | .var name => "TxArg::var(" ++ stringLiteral name ++ ")"
  | .argument ident => "TxArg::value(" ++ ident ++ ")"

/-- The line break before a call on a step. -/
def stepBreak : String := "\n                    ."

/-- The call that makes a step of a kind (in `render_step`). -/
def stepHead (action sql : String) : StepKind → String
  | .queryRow => "TxStep::query_row(" ++ stringLiteral action ++ ", " ++ stringLiteral sql ++ ")"
  | .query => "TxStep::query(" ++ stringLiteral action ++ ", " ++ stringLiteral sql ++ ")"
  | .exec false => "TxStep::exec(" ++ stringLiteral action ++ ", " ++ stringLiteral sql ++ ")"
  | .exec true =>
    "TxStep::exec(" ++ stringLiteral action ++ ", " ++ stringLiteral sql ++ ")" ++ stepBreak
      ++ "expect_one()"
  | .insert => "TxStep::insert(" ++ stringLiteral action ++ ", " ++ stringLiteral sql ++ ")"

/-- The call that exports a variable (in `render_step`). -/
def exportText (e : PlannedExport) : String :=
  match e.source with
  | .column index => "export_column(" ++ Text.ofNat index ++ ", " ++ stringLiteral e.var ++ ")"
  | .insertId => "export_insert_id(" ++ stringLiteral e.var ++ ")"
  | .rowsAffected => "export_rows_affected(" ++ stringLiteral e.var ++ ")"

/-- The text of a step (`render_step`). -/
def StepCall.text (s : StepCall) : String :=
  "\n            .step(\n                " ++ stepHead s.action s.sql s.kind
    ++ String.join (s.args.map fun a => stepBreak ++ "arg(" ++ a.stepText ++ ")")
    ++ String.join (s.exports.map fun e => stepBreak ++ exportText e)
    ++ ",\n            )"

/-- The expression that takes a variable after a run (in `render`). -/
def takeText (runtime : String) (v : Variable) : String :=
  "vars.take::<" ++ ownedType runtime v.type ++ ">(" ++ stringLiteral v.name ++ ")"

/-- The lines that run a transaction and return variables (in `render`). -/
def runText (runtime : String) : List Variable → String
  | [] => "        plan.run(db).await?;\n        Ok(())\n"
  | [v] =>
    "        let mut vars = plan.run(db).await?;\n        " ++ takeText runtime v ++ "\n"
  | vars =>
    "        let mut vars = plan.run(db).await?;\n        Ok(("
      ++ String.intercalate ", " (vars.map fun v => takeText runtime v ++ "?") ++ "))\n"

/-- The text of a method that calls a helper (in `GroupEmitter::action`). -/
def callText (runtime : String) (m : Method) (helper : Helper) (sql : String)
    (args : List CallArg) : String :=
  "    /// `" ++ m.name ++ "`\n    pub async fn " ++ m.ident
    ++ "<Q: Queryable + ?Sized>(\n        &self,\n        queryable: &mut Q,\n"
    ++ String.join (m.arguments.map (Argument.line runtime)) ++ "    ) -> Result<"
    ++ m.returned.text runtime ++ ", DalError> \x7b\n        " ++ runtime ++ "::" ++ helper.label
    ++ "(queryable, " ++ stringLiteral sql ++ ", &["
    ++ String.intercalate ", " (args.map CallArg.valueText) ++ "]).await\n    \x7d\n"

/-- The variables that a method returns. -/
def Returned.vars : Returned → List Variable
  | .variables vars => vars
  | _ => []

/-- The text of a method that runs a transaction (in `render`). -/
def transactionText (runtime : String) (m : Method) (steps : List StepCall) : String :=
  "    /// Transaction `" ++ escape m.name ++ "`.\n    pub async fn " ++ m.ident
    ++ "<D: Database>(\n        &self,\n        db: &D,\n"
    ++ String.join (m.arguments.map (Argument.line runtime)) ++ "    ) -> Result<"
    ++ m.returned.text runtime ++ ", DalError> \x7b\n        let plan = TxPlan::new("
    ++ stringLiteral m.name ++ ")" ++ String.join (steps.map StepCall.text) ++ ";\n"
    ++ runText runtime m.returned.vars ++ "    \x7d\n"

/-- The text of a method. -/
def Method.text (runtime : String) (m : Method) : String :=
  match m.body with
  | .call helper sql args => callText runtime m helper sql args
  | .transaction steps => transactionText runtime m steps

/-- The line of a field of a record (in `result_struct`). -/
def RecordField.line (runtime : String) (f : RecordField) : String :=
  "    pub " ++ f.ident ++ ": " ++ ownedType runtime f.type ++ ",\n"

/-- The text of a record (`result_struct`). -/
def RecordType.text (runtime : String) (r : RecordType) : String :=
  "#[derive(Debug, Clone, PartialEq, FromRow)]\npub struct " ++ r.name ++ " \x7b\n"
    ++ String.join (r.fields.map (RecordField.line runtime)) ++ "\x7d\n\n"

end Bindery.Code
