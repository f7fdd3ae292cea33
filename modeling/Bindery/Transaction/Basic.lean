import Bindery.Action.Basic

/-!
# Transactions

A transaction runs actions one after the other, all or none. What a step
produces can be exported into a variable, which later steps use as an argument
and which the transaction may return.
-/

namespace Bindery

/-- Where the argument of a step comes from (`ArgSource`, `PlannedArg`). -/
inductive ArgumentSource where
  /-- An argument of the transaction. -/
  | caller (name : String)
  /-- A variable that an earlier step exports. -/
  | var (name : String)
  | literal (v : Value)
  deriving DecidableEq

/-- What a step produces (`StepOutput`). -/
inductive StepOutput where
  /-- A field of the row that is fetched. -/
  | field (name : String)
  /-- The key that an insert generates. -/
  | insertId
  /-- The number of rows that a write affects. -/
  | rowsAffected
  deriving DecidableEq

/-- The name of an output in messages (`output_name`). -/
def StepOutput.label : StepOutput → String
  | .field name => name
  | .insertId => "insert id"
  | .rowsAffected => "rows affected"

/-- An output that is kept in a variable (`StepExport`). -/
structure StepExport where
  output : StepOutput
  var : String
  deriving DecidableEq

/-- A step of a transaction (`TransactionStep`). Parameters it does not bind become
    arguments of the transaction. -/
structure TransactionStep where
  action : Action
  args : List (String × ArgumentSource) := []
  exports : List StepExport := []

/-- A named transaction of a table (`TransactionDef`). -/
structure Transaction where
  name : String
  table : Table
  steps : List TransactionStep := []
  returns : List String := []

end Bindery
