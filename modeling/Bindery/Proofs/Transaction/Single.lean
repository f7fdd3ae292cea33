import Bindery.Proofs.Access.Course
import Bindery.Proofs.Action.Wrapper
import Bindery.Proofs.Code.Call

/-!
# Actions on their own

An action can be called by itself, or as the only step of a transaction. The two
ways find the values of its placeholders by different rules: the method of the
action looks them up among its arguments, and the plan collects the arguments from
the placeholders one by one. Both end with the same arguments and the same values.

* `Action.agree_compile`: the parameters of a compiled action agree.
* `Action.plan_alone`: the plan of an action alone.
* `Action.alone_sends`: it sends what the method of the action sends.
-/

namespace Bindery

/-! ## Parameters of compiled actions -/

theorem Draft.agree_of_settle {α : Type} {x : Draft α} {a : α} {s : Statement}
    (h : x.settle = .ok (a, s)) : Agree s.bindings :=
  conflict?_eq_none_iff.1 (settle_eq_ok_iff_yields.1 h).1

theorem Task.agree_prepare {naming : Naming} {table : Table} {task : Task} {kind : ActionKind}
    {statement : Statement} {shape : Option Shape}
    (h : task.prepare naming table = .ok (kind, statement, shape)) : Agree statement.bindings := by
  have settled := settle_of_prepare h
  cases task with
  | select s => exact settled.elim fun _ => Draft.agree_of_settle
  | union u => exact settled.elim fun _ => Draft.agree_of_settle
  | insert i => exact settled.elim fun _ => Draft.agree_of_settle
  | update u => exact settled.elim fun _ => Draft.agree_of_settle
  | delete d => exact Draft.agree_of_settle settled

theorem Action.agree_prepare {naming : Naming} {a : Action} {p : Prepared}
    (h : a.prepare naming = .ok p) : Agree p.statement.bindings := by
  induction a generalizing p with
  | perform name table task => exact Task.agree_prepare (prepare_perform_eq_ok h).1
  | wrap name table inner args ih =>
    obtain ⟨q, prepared, same, -⟩ := prepare_wrap_eq_ok h
    rw [same]
    exact ih prepared

/-- The parameters of a compiled action agree. -/
theorem Action.agree_compile {o : Options} {a : Action} {c : Compiled}
    (h : a.compile o = .ok c) : Agree c.params := by
  obtain ⟨p, prepared, rfl⟩ := compile_eq_ok_iff.1 h
  exact agree_prepare prepared

/-! ## One step -/

/-- The transaction whose only step is an action, with nothing bound. -/
def Action.alone (a : Action) (name : String) (table : Table) : Transaction where
  name
  table
  steps := [{ action := a }]

/-- The source of a placeholder if nothing is bound: the value that a wrapper
    fixes, or else the argument of its name. -/
def Compiled.ownSource (c : Compiled) (b : Binding) : ArgumentSource :=
  match c.fixedValue? b.name with
  | some value => .literal value
  | none => .caller b.name

/-- The plan of a compiled action alone. -/
def Compiled.planAlone (c : Compiled) (name : String) (table : Table) : Plan where
  name
  table := table.name
  args := c.arguments.map fun b => ⟨b.name, b.type⟩
  steps := [⟨c.name, c.sql, c.kind.stepKind, c.params.map c.ownSource, []⟩]
  returns := []

theorem Action.placeholderSource_alone (a : Action) (c : Compiled) :
    ({ action := a } : TransactionStep).placeholderSource c = c.ownSource := rfl

/-- The uses of an action alone are its parameters that no wrapper fixes. -/
theorem Action.uses_alone (a : Action) (c : Compiled) (bs : List Binding) :
    ({ action := a } : TransactionStep).uses c bs =
      bs.filter fun b => (c.fixedValue? b.name).isNone := by
  unfold TransactionStep.uses
  rw [placeholderSource_alone, ← List.filterMap_eq_filter]
  congr 1
  funext b
  unfold Compiled.ownSource
  cases free : c.fixedValue? b.name with
  | some value => simp [Option.guard, free, ArgumentSource.caller?]
  | none => simp [Option.guard, free, ArgumentSource.caller?]

theorem Action.argumentsOf_uses_alone (a : Action) (c : Compiled) :
    argumentsOf (({ action := a } : TransactionStep).uses c c.params) =
      c.arguments.map fun b => ⟨b.name, b.type⟩ := by
  unfold argumentsOf Compiled.arguments Compiled.sqlArguments
  rw [uses_alone, filter_distinctBindings fun name => (c.fixedValue? name).isNone]

/-- An action alone reads no variables, and its uses agree as its parameters do. -/
theorem Action.planArguments_alone {o : Options} {a : Action} {c : Compiled}
    (compiled : a.compile o = .ok c) :
    planArguments 1 { action := a } c [] [] c.params =
      .ok (c.params.map c.ownSource, c.arguments.map fun b => ⟨b.name, b.type⟩) := by
  have none : Agree [] := by simp [Agree]
  refine (planArguments_eq_ok_iff none).2 ⟨rfl, ?_, ?_, ?_⟩
  · intro var member
    obtain ⟨b, -, source_eq⟩ := List.mem_map.1 member
    unfold Compiled.ownSource at source_eq
    split at source_eq <;> cases source_eq
  · rw [List.nil_append, uses_alone]
    exact (agree_compile compiled).of_subset (List.filter_subset_self _)
  · rw [List.nil_append, argumentsOf_uses_alone]

theorem Action.plan_alone {o : Options} {a : Action} {c : Compiled} (compiled : a.compile o = .ok c)
    (name : String) (table : Table) :
    (a.alone name table).plan o = .ok (c.planAlone name table) := by
  have step : ({ action := a } : TransactionStep).plan o 1 {} =
      .ok (⟨c.name, c.sql, c.kind.stepKind, c.params.map c.ownSource, []⟩,
        ⟨c.arguments.map fun b => ⟨b.name, b.type⟩, []⟩) := by
    rw [TransactionStep.plan_eq, compiled]
    show (planArguments 1 { action := a } c [] [] c.params >>= _) = _
    rw [planArguments_alone compiled]
    rfl
  unfold Transaction.plan
  show ((({ action := a } : TransactionStep).plan o 1 {} >>= _) >>= _) = _
  rw [step]
  rfl

/-! ## What is sent -/

theorem Compiled.resolve_ownSource (c : Compiled) (given : String → Value) (b : Binding) :
    (c.ownSource b).resolve given = .value ((c.fixedValue? b.name).getD (given b.name)) := by
  unfold ownSource
  cases c.fixedValue? b.name with
  | some value => rfl
  | none => rfl

/-- The only step of an action alone, given its arguments. -/
theorem Compiled.steps_planAlone (c : Compiled) (name : String) (table : Table)
    (given : String → Value) :
    ((c.planAlone name table).routine given).steps =
      [{ action := c.name, sql := c.sql, kind := c.kind.stepKind
         args := (c.values given).map .value }] := by
  have args : (c.params.map c.ownSource).map (·.resolve given) = (c.values given).map .value := by
    unfold values
    rw [List.map_map, List.map_map]
    exact List.map_congr_left fun b _ => c.resolve_ownSource given b
  show [RoutineStep.mk _ _ _ _ _] = _
  rw [args]
  rfl

/-- A step whose arguments are values sends them whatever the variables are. -/
theorem RoutineStep.call?_of_values {step : RoutineStep} {values : List Value}
    (h : step.args = values.map .value) (vars : Variables) :
    step.call? vars = some (step.kind.call step.sql values) := by
  have resolved : step.args.mapM (RoutineArg.resolve vars) = .ok values := by
    rw [h, List.mapM_map]
    exact mapM_eq_ok_iff.2 (List.forall₂_same.2 fun v _ => rfl)
  unfold call?
  rw [resolved]

/-- The plan of an action alone lists the arguments that its step uses. -/
theorem Compiled.listed_planAlone (c : Compiled) (name : String) (table : Table) :
    ∀ s ∈ (c.planAlone name table).steps, ∀ arg, .caller arg ∈ s.args →
      arg ∈ (c.planAlone name table).args.map (·.name) := by
  intro s hs arg used
  obtain rfl := List.mem_singleton.1 hs
  obtain ⟨b, member, source_eq⟩ := List.mem_map.1 used
  unfold ownSource at source_eq
  split at source_eq
  · cases source_eq
  · next free =>
    cases source_eq
    unfold planAlone
    rw [List.map_map]
    exact mem_names_arguments member free

/-- An action that compiles can stand alone in a transaction. The transaction has
    the arguments of the action, and given these its step sends the statement of
    the action with the values of its placeholders: those that wrappers fix, and
    those given for the other parameters. So does the method of the action, and
    the method of the transaction runs that step. -/
theorem Action.alone_sends {o : Options} {a : Action} {c : Compiled}
    (compiled : a.compile o = .ok c) (name : String) (table : Table) :
    ∃ p, (a.alone name table).plan o = .ok p ∧
      p.args = c.arguments.map (fun b => ⟨b.name, b.type⟩) ∧
      ∀ given : String → Value, ∃ step, (p.routine given).steps = [step] ∧
        step.sql = c.sql ∧ step.args = (c.values given).map .value ∧
        (∀ vars, step.call? vars = some (c.kind.stepKind.call c.sql (c.values given))) ∧
        (∀ owner ident m record, Code.Method.ofCompiled owner ident c = .ok (m, record) →
          m.statement? given = some (step.sql, step.args)) ∧
        ∀ ident m, Code.Method.ofPlan ident p = .ok m → m.routine? given = some ⟨name, [step]⟩ := by
  refine ⟨c.planAlone name table, plan_alone compiled name table, rfl, fun given => ?_⟩
  refine ⟨_, c.steps_planAlone name table given, rfl, rfl, ?_, ?_, ?_⟩
  · intro vars
    exact RoutineStep.call?_of_values rfl vars
  · intro owner ident m record made
    exact Code.Method.statement?_ofCompiled made given
  · intro ident m made
    rw [← c.steps_planAlone name table given]
    exact Code.Method.routine?_ofPlan made (c.listed_planAlone name table) given

/-- The second page of twenty accounts, up to a key. -/
def secondPage (name : String) : Value :=
  if name = "high" then .int 50 else if name = "limit" then .int 20 else .int 40

theorem firstPages_alone :
    ∃ c p step m record, firstPages.compile {} = .ok c ∧
      (firstPages.alone "page" accounts).plan {} = .ok p ∧
      p.args = [⟨"high", .count⟩, ⟨"limit", .count⟩, ⟨"offset", .count⟩] ∧
      (p.routine secondPage).steps = [step] ∧
      step.args = [.value (.int 1), .value (.int 7), .value (.int 99), .value (.int 50),
        .value (.int 7), .value (.int 99), .value (.int 20), .value (.int 40), .value (.int 20),
        .value (.int 40)] ∧
      Code.Method.ofCompiled "accounts" "first" c = .ok (m, record) ∧
      m.statement? secondPage = some (c.sql, step.args) := by
  have compiles : ∃ c m record, firstPages.compile {} = .ok c ∧
      Code.Method.ofCompiled "accounts" "first" c = .ok (m, record) := ⟨_, _, _, rfl, rfl⟩
  obtain ⟨c, m, record, hc, made⟩ := compiles
  have params : c.params = firstPages.occurrences := by
    obtain ⟨p, prepared, rfl⟩ := Action.compile_eq_ok_iff.1 hc
    exact Action.bindings_prepare prepared
  have fixed : c.fixed = firstPages.fixedArguments := by
    obtain ⟨b, -, -, -, rfl⟩ := Action.compile_eq_ok_iff_core.1 hc
    rfl
  obtain ⟨p, planned, args, sends⟩ := Action.alone_sends hc "page" accounts
  obtain ⟨step, steps, sql, values, -, direct, -⟩ := sends secondPage
  refine ⟨c, p, step, m, record, hc, planned, ?_, steps, ?_, made, ?_⟩
  · rw [args]
    unfold Compiled.arguments Compiled.sqlArguments Compiled.fixedValue?
    rw [params, fixed]
    decide
  · rw [values]
    unfold Compiled.values Compiled.fixedValue?
    rw [params, fixed]
    decide
  · rw [← sql]
    exact direct _ _ _ _ made

end Bindery
