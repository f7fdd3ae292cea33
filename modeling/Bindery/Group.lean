import Bindery.Code.Module

/-!
# Table groups

A group is a table with its actions and transactions. A build compiles each of
them, adds it to the module of the table, and reports those that fail; one that
fails does not keep the others from being built. Names are used once in a group,
also by what fails.

* `Group.build`: the module of a group, and what went into it.
-/

namespace Bindery

open Code (Module)

/-- The actions and transactions of a table (`TableGroup`). -/
structure Group where
  table : Table
  actions : List Action := []
  transactions : List Transaction := []

/-- What came of a build so far (in `build_group`). -/
structure Build where
  module : Module
  actions : List Compiled := []
  transactions : List Plan := []
  reports : List Report := []
  /-- The names that are used. -/
  names : List String := []

/-- The result of a build (`BuildOutput`). -/
structure BuildOutput where
  code : String
  actions : List Compiled
  transactions : List Plan
  reports : List Report

/-- Whether nothing failed (`BuildOutput::is_ok`). -/
def BuildOutput.isOk (b : BuildOutput) : Bool := b.reports.isEmpty

/-- The compiled form of an action under a name that is free, and the module with
    its method (in `build_group`). -/
def Build.tryAction (o : Options) (b : Build) (a : Action) : Except Fault (Compiled × Module) := do
  if b.names.contains a.name then .error (.duplicateAction a.name)
  let c ← a.compile o
  return (c, ← b.module.addCompiled c)

/-- The plan of a transaction under a name that is free, and the module with its
    method (in `build_group`). -/
def Build.tryTransaction (o : Options) (b : Build) (t : Transaction) :
    Except Fault (Plan × Module) := do
  if b.names.contains t.name then .error (.duplicateAction t.name)
  let p ← t.plan o
  return (p, ← b.module.addPlan p)

/-- The build after an action or transaction that failed (`fail`). -/
def Build.report (b : Build) (name : String) (fault : Fault) : Build :=
  { b with
    reports := b.reports ++ [⟨b.module.table, some name, fault⟩]
    names := b.names ++ [name] }

/-- The build after an action (in `build_group`). -/
def Build.addAction (o : Options) (b : Build) (a : Action) : Build :=
  match b.tryAction o a with
  | .ok (c, module) =>
    { b with module, actions := b.actions ++ [c], names := b.names ++ [a.name] }
  | .error fault => b.report a.name fault

/-- The build after a transaction (in `build_group`). -/
def Build.addTransaction (o : Options) (b : Build) (t : Transaction) : Build :=
  match b.tryTransaction o t with
  | .ok (p, module) =>
    { b with module, transactions := b.transactions ++ [p], names := b.names ++ [t.name] }
  | .error fault => b.report t.name fault

/-- The build of all actions and then all transactions of a group (in `build_group`). -/
def Group.buildIn (o : Options) (g : Group) (m : Module) : Build :=
  g.transactions.foldl (Build.addTransaction o) (g.actions.foldl (Build.addAction o) { module := m })

/-- The module of a group and what went into it (`build_group`). A table name
    without a type name leaves nothing to build. -/
def Group.build (o : Options) (g : Group) : BuildOutput :=
  match Module.ofTable g.table with
  | .error fault => ⟨"", [], [], [⟨g.table.name, none, fault⟩]⟩
  | .ok m =>
    let b := g.buildIn o m
    ⟨b.module.text o, b.actions, b.transactions, b.reports⟩

end Bindery
