import Bindery.Code.Method
import Bindery.Options

/-!
# Emitted modules

The module of a table group: a type for the table and a constant of it, a record
per action with rows, and a method per action or transaction. A method is only
added if its name is free; a method that cannot be added leaves no trace.

* `Module.addCompiled`, `Module.addPlan`: the module with one method more.
* `Module.text`: the text of a module.
-/

namespace Bindery.Code

/-- A module in the making (`GroupEmitter`). -/
structure Module where
  /-- The name of the table. -/
  table : String
  typeName : String
  constName : String
  records : List RecordType
  methods : List Method
  deriving DecidableEq

namespace Module

/-- The module of a table, without methods (`GroupEmitter::new`). -/
def ofTable (t : Table) : Except Fault Module := do
  let base ← Name.typeName t.name
  return ⟨t.name, base ++ "Table", Name.screaming t.name, [], []⟩

/-- The identifier of a method, if it is free (`GroupEmitter::function_name`). -/
def methodIdent (m : Module) (name : String) : Except Fault String := do
  let ident ← Name.identifier name
  if m.methods.any (·.ident == ident) then .error (.duplicateFunction ident) else .ok ident

/-- The module with a method for a compiled action (`GroupEmitter::action`). -/
def addCompiled (m : Module) (c : Compiled) : Except Fault Module := do
  let ident ← m.methodIdent c.name
  let (method, record) ← Method.ofCompiled m.table ident c
  return { m with records := m.records ++ record.toList, methods := m.methods ++ [method] }

/-- The module with a method for a planned transaction (`GroupEmitter::transaction`). -/
def addPlan (m : Module) (p : Plan) : Except Fault Module := do
  let ident ← m.methodIdent p.name
  let method ← Method.ofPlan ident p
  return { m with methods := m.methods ++ [method] }

/-! ## Text -/

/-- The lines before records and methods (in `GroupEmitter::finish`). -/
def headText (o : Options) (m : Module) : String :=
  o.header ++ "\n\n#[allow(unused_imports)]\nuse " ++ o.runtimePath
    ++ "::prelude::*;\n\n/// Bindings for table `" ++ m.table
    ++ "`.\n#[derive(Debug, Clone, Copy, Default)]\npub struct " ++ m.typeName
    ++ ";\n\n/// Shared instance of [`" ++ m.typeName ++ "`].\npub const " ++ m.constName ++ ": "
    ++ m.typeName ++ " = " ++ m.typeName ++ ";\n"

/-- The records, behind an empty line (in `GroupEmitter::finish`). -/
def recordsText (o : Options) (m : Module) : String :=
  match m.records with
  | [] => ""
  | records => "\n" ++ String.join (records.map (RecordType.text o.runtimePath))

/-- The methods, behind an empty line (in `GroupEmitter::finish`). -/
def methodsText (o : Options) (m : Module) : String :=
  match m.methods with
  | [] => ""
  | methods =>
    "\nimpl " ++ m.typeName ++ " \x7b\n"
      ++ String.intercalate "\n" (methods.map (Method.text o.runtimePath)) ++ "\x7d\n"

/-- The text of a module (`GroupEmitter::finish`). -/
def text (o : Options) (m : Module) : String := m.headText o ++ m.recordsText o ++ m.methodsText o

end Module

end Bindery.Code
