import Bindery.Proofs.Statement.Placeholders
import Bindery.Proofs.Transaction.Arguments

/-!
# Dialects

The dialect of a build is handed to every writer, and yet it decides how statements are
spelled and nothing else: neither whether an action compiles or a transaction is planned,
nor with which fault it fails, nor anything of the result but the texts of its statements.
In each dialect the writers follow one draft, which knows none of them, so under two
dialects they end alike, with two spellings of one statement.

* `Compiled.Respelled`, `PlannedStep.Respelled`, `Plan.Respelled`: results that
  differ in the spelling of their statements.
* `TransactionStep.alike_plan`, `alike_planSteps`: steps are planned alike.
* `Options.alike_of_dialect`: actions and transactions under two dialects.
-/

namespace Bindery

/-- Two texts that spell one statement, each in its dialect. -/
def Respelled (d d' : Dialect) (sql sql' : String) : Prop :=
  ∃ s : Statement, sql = s.sql d ∧ sql' = s.sql d'

/-! ## Actions -/

/-- Compiled actions that differ in the spelling of the statement. -/
structure Compiled.Respelled (d d' : Dialect) (c c' : Compiled) : Prop where
  same : c' = { c with sql := c'.sql }
  spelled : ∃ s : Statement, s.bindings = c.params ∧ c.sql = s.sql d ∧ c'.sql = s.sql d'

theorem Action.alike_compile (o : Options) (d : Dialect) (a : Action) :
    Alike (Compiled.Respelled o.dialect d) (a.compile o) (a.compile { o with dialect := d }) := by
  rw [compile_eq_map_prepare, compile_eq_map_prepare]
  cases a.prepare o.naming with
  | error fault => exact .error fault
  | ok p => exact .ok ⟨rfl, p.statement, rfl, rfl, rfl⟩

/-! ## Steps -/

/-- Planned steps that differ in the spelling of the statement. -/
structure PlannedStep.Respelled (d d' : Dialect) (s s' : PlannedStep) : Prop where
  same : s' = { s with sql := s'.sql }
  spelled : Bindery.Respelled d d' s.sql s'.sql

/-- The sources of placeholders do not depend on the text around them. -/
theorem planArguments_sql (number : Nat) (step : TransactionStep) (c : Compiled) (sql : String)
    (vars args : List Variable) (bs : List Binding) :
    planArguments number step { c with sql } vars args bs =
      planArguments number step c vars args bs := by
  induction bs generalizing args with
  | nil => rfl
  | cons b rest ih =>
    unfold planArguments
    simp only [ih]
    rfl

/-- A step is planned alike, and leaves the same arguments and variables behind. -/
theorem TransactionStep.alike_plan (o : Options) (d : Dialect) (number : Nat) (state : PlanState)
    (step : TransactionStep) :
    Alike (fun x x' => x.1.Respelled o.dialect d x'.1 ∧ x.2 = x'.2)
      (step.plan o number state) (step.plan { o with dialect := d } number state) := by
  rw [plan_eq, plan_eq]
  refine (step.action.alike_compile o d).bind ?_
  rintro c c' ⟨same, s, -, sql_eq, sql_eq'⟩
  generalize c'.sql = sql at same sql_eq'
  subst same
  have unknown_eq :
      unknownArgument? number step { c with sql } = unknownArgument? number step c := rfl
  unfold planCompiled
  rw [unknown_eq]
  cases unknownArgument? number step c with
  | some fault => exact .error fault
  | none =>
    refine (Alike.of_eq (fun _ => rfl) (planArguments_sql ..).symm).bind ?_
    rintro ⟨sources, args⟩ _ rfl
    refine (Alike.of_eq (fun _ => rfl) rfl).bind ?_
    rintro exports _ rfl
    exact .ok ⟨⟨rfl, s, sql_eq, sql_eq'⟩, rfl⟩

theorem alike_planSteps (o : Options) (d : Dialect) (number : Nat) (state : PlanState)
    (steps : List TransactionStep) :
    Alike (fun x x' => List.Forall₂ (PlannedStep.Respelled o.dialect d) x.1 x'.1 ∧ x.2 = x'.2)
      (planSteps o number state steps) (planSteps { o with dialect := d } number state steps) := by
  induction steps generalizing number state with
  | nil => exact .ok ⟨.nil, rfl⟩
  | cons step rest ih =>
    refine (step.alike_plan o d number state).bind ?_
    rintro ⟨planned, state₁⟩ ⟨planned', _⟩ ⟨first, rfl⟩
    refine (ih (number + 1) state₁).bind ?_
    rintro ⟨others, state₂⟩ ⟨others', _⟩ ⟨each, rfl⟩
    exact .ok ⟨.cons first each, rfl⟩

/-! ## Plans -/

/-- Plans that differ in the spelling of their statements. -/
structure Plan.Respelled (d d' : Dialect) (p p' : Plan) : Prop where
  same : p' = { p with steps := p'.steps }
  steps : List.Forall₂ (PlannedStep.Respelled d d') p.steps p'.steps

theorem Transaction.alike_plan (o : Options) (d : Dialect) (t : Transaction) :
    Alike (Plan.Respelled o.dialect d) (t.plan o) (t.plan { o with dialect := d }) := by
  unfold plan
  refine (alike_planSteps o d 1 {} t.steps).bind ?_
  rintro ⟨steps, state⟩ ⟨steps', _⟩ ⟨each, rfl⟩
  refine (Alike.of_eq (fun _ => rfl) rfl).bind ?_
  rintro returns _ rfl
  exact .ok ⟨rfl, each⟩

/-- Under two dialects an action compiles, and a transaction is planned, with the
    same fault or with results that differ in the spelling of their statements. -/
theorem Options.alike_of_dialect (o : Options) (d : Dialect) :
    (∀ a : Action,
      Alike (Compiled.Respelled o.dialect d) (a.compile o) (a.compile { o with dialect := d })) ∧
    ∀ t : Transaction,
      Alike (Plan.Respelled o.dialect d) (t.plan o) (t.plan { o with dialect := d }) :=
  ⟨fun a => a.alike_compile o d, fun t => t.alike_plan o d⟩

end Bindery
