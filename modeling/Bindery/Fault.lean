import Bindery.Text.Numeral

/-!
# Faults

Every way in which a definition can be unusable, with the data that names the
culprit. A fault belongs to one of three families: the definition itself is
wrong, no statement can be derived from it, or no binding can be written for it.

* `Fault.message`: the text of a fault.
* `Report.message`: the text of a fault with the table and action it concerns.
-/

namespace Bindery

/-- A reason to refuse a definition (`DefinitionError`, `CompileError`,
    `EmitError`). Positions are counted from one. -/
inductive Fault where
  /-- Two columns of one table share a name. -/
  | duplicateColumn (table column : String)
  /-- A table name is registered already. -/
  | duplicateTable (table : String)
  /-- No table of this name is registered. -/
  | unknownTable (table : String)
  /-- A table has no column of this name. -/
  | unknownColumn (table column : String)
  /-- A join hangs off a join that does not come before it. -/
  | joinOutOfScope (join source : Nat)
  /-- A generated alias is also the database name of a table in scope. -/
  | ambiguousAlias (label table : String)
  /-- A column names a join that is not declared. -/
  | undeclaredJoin (join : Nat) (column : String)
  /-- A table has no columns to work on. -/
  | emptyTable (table : String)
  /-- A float default has no literal. -/
  | nonFiniteDefault (table column : String)
  /-- A column is left to a default it does not have. -/
  | missingDefault (column : String)
  /-- A column is left to its default and also bound as a parameter. -/
  | defaultShadowsParam (column param : String)
  /-- A column is assigned twice. -/
  | duplicateAssignment (column : String)
  /-- No column is assigned. -/
  | noAssignments
  /-- Two parameters share a name and differ in type. -/
  | conflictingParam (param : String)
  /-- A statement would touch every row without being marked so. -/
  | missingWhere (statement : String)
  /-- The type of an expression is neither given nor implied. -/
  | untypedExpression (name : String)
  /-- A single value is asked of another number of columns. -/
  | fieldSelectArity (found : Nat)
  /-- An action name is used twice in one group. -/
  | duplicateAction (action : String)
  /-- A wrapper fixes what is not a free parameter. -/
  | unknownWrapArgument (param : String)
  /-- A step binds what is not a free parameter of its action. -/
  | unknownStepArgument (step : Nat) (argument : String)
  /-- A step reads a variable that no earlier step exports. -/
  | unboundVariable (step : Nat) (var : String)
  /-- A step exports what its action does not produce. -/
  | unknownStepOutput (step : Nat) (output : String)
  /-- A transaction returns a variable that no step exports. -/
  | unknownReturn (var : String)
  /-- Union branches differ in their number of columns. -/
  | unionShapeMismatch (branch expected found : Nat)
  /-- A union has too few branches or a wrong number of modes. -/
  | malformedUnion (branches modes : Nat)
  /-- An order key names no output. -/
  | unknownOrderKey (key : String)
  /-- Two actions need the same function name. -/
  | duplicateFunction (function : String)
  /-- Two result fields need the same field name. -/
  | fieldCollision (first second field : String)
  /-- Two parameters need the same argument name. -/
  | argumentCollision (first second argument : String)
  /-- A name cannot be spelled as an identifier. -/
  | invalidIdentifier (name : String)
  deriving DecidableEq

/-- The stage that raises a fault (`ErrorKind`). -/
inductive Family where
  /-- The definition is invalid. -/
  | definition
  /-- No statement or result shape can be derived. -/
  | compile
  /-- No binding can be written. -/
  | emit
  deriving DecidableEq

/-- The family of a fault (a variant of `ErrorKind`). -/
def Fault.family : Fault → Family
  | .unionShapeMismatch .. | .malformedUnion .. | .unknownOrderKey _ => .compile
  | .duplicateFunction _ | .fieldCollision .. | .argumentCollision .. | .invalidIdentifier _ => .emit
  | _ => .definition

/-- A name in a message: between double quotes, as it is. -/
def inQuotes (s : String) : String := "\"" ++ s ++ "\""

open Text (ofNat) in
/-- The text of a fault (the `Display` of `ErrorKind`). -/
def Fault.message : Fault → String
  | .duplicateColumn t c => "duplicate column " ++ inQuotes c ++ " in table " ++ inQuotes t
  | .duplicateTable t => "table " ++ inQuotes t ++ " is already registered"
  | .unknownTable t => "unknown table " ++ inQuotes t
  | .unknownColumn t c => "column " ++ inQuotes c ++ " does not exist on table " ++ inQuotes t
  | .joinOutOfScope j s =>
    "join #" ++ ofNat j ++ " references join #" ++ ofNat s ++ ", which is not in scope"
  | .ambiguousAlias a t => "alias " ++ inQuotes a ++ " would shadow table " ++ inQuotes t
  | .undeclaredJoin j c => "column " ++ inQuotes c ++ " references undeclared join #" ++ ofNat j
  | .emptyTable t => "table " ++ inQuotes t ++ " has no columns"
  | .nonFiniteDefault t c =>
    "default of column " ++ inQuotes c ++ " in table " ++ inQuotes t ++ " is not a finite number"
  | .missingDefault c =>
    "column " ++ inQuotes c ++ " has no default value and no value was supplied"
  | .defaultShadowsParam c p =>
    "column " ++ inQuotes c ++ " is substituted by its default but also bound as parameter "
      ++ inQuotes p
  | .duplicateAssignment c => "column " ++ inQuotes c ++ " is assigned more than once"
  | .noAssignments => "no columns to set"
  | .conflictingParam p => "parameter " ++ inQuotes p ++ " is declared with conflicting types"
  | .missingWhere s => s ++ " without a WHERE clause must be marked unrestricted"
  | .untypedExpression n => "expression column " ++ inQuotes n ++ " needs an explicit type"
  | .fieldSelectArity n =>
    "a single-field select must select exactly one column, found " ++ ofNat n
  | .duplicateAction a => "duplicate action " ++ inQuotes a
  | .unknownWrapArgument p => "wrapped action has no free parameter " ++ inQuotes p
  | .unknownStepArgument s a => "step " ++ ofNat s ++ " binds unknown argument " ++ inQuotes a
  | .unboundVariable s v =>
    "step " ++ ofNat s ++ " uses variable " ++ inQuotes v ++ " before it is exported"
  | .unknownStepOutput s o => "step " ++ ofNat s ++ " exports unknown output " ++ inQuotes o
  | .unknownReturn v => "transaction returns unknown variable " ++ inQuotes v
  | .unionShapeMismatch b e f =>
    "union branch " ++ ofNat b ++ " has " ++ ofNat f ++ " columns, expected " ++ ofNat e
  | .malformedUnion b m =>
    "union needs at least two branches and one mode per boundary, got " ++ ofNat b
      ++ " branches and " ++ ofNat m ++ " modes"
  | .unknownOrderKey k => "order key " ++ inQuotes k ++ " does not match any selected column"
  | .duplicateFunction f => "function name " ++ inQuotes f ++ " is generated more than once"
  | .fieldCollision a b f =>
    "result fields " ++ inQuotes a ++ " and " ++ inQuotes b ++ " both map to field " ++ inQuotes f
  | .argumentCollision a b x =>
    "parameters " ++ inQuotes a ++ " and " ++ inQuotes b ++ " both map to argument " ++ inQuotes x
  | .invalidIdentifier n => inQuotes n ++ " is not a valid identifier"

/-- A fault with the table it concerns and, unless it concerns the whole table, the
    action or transaction (`Error`). -/
structure Report where
  table : String
  action : Option String
  fault : Fault
  deriving DecidableEq

/-- The text of a report: the fault's text, then the place in brackets
    (the `Display` of `Error`). -/
def Report.message (r : Report) : String :=
  match r.action with
  | some action =>
    r.fault.message ++ " [table " ++ inQuotes r.table ++ ", action " ++ inQuotes action ++ "]"
  | none => r.fault.message ++ " [table " ++ inQuotes r.table ++ "]"

end Bindery
