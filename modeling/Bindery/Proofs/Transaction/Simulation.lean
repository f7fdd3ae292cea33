import Bindery.Access.Script
import Bindery.Proofs.Access.Course
import Bindery.Proofs.Access.Variables
import Bindery.Proofs.Transaction.Planned

/-!
# Plans and their runs

A plan keeps a table of the variables that are exported, a run holds their
values. Step by step the variables of the run are those of the table, so a
planned routine never reads a variable that is not set, and it never reads a
column beyond the rows it fetches.

* `Database.Plain`: a database that reports its own refusals only.
* `Planned.simulates`: the table of the plan and the variables of the run agree at
  every step.
* `Transaction.run_of_plan`: the runs of a planned transaction.
-/

namespace Bindery

variable {σ : Type}

/-! ## Errors of a step -/

/-- Whether an error shows that a routine is wired wrong: it reads a variable that
    is not set, or a column that is not there. -/
def AccessError.isMiswired : AccessError → Bool
  | .missingVariable _ | .columnIndex _ _ => true
  | _ => false

theorem AccessError.isMiswired_of_database {e : AccessError} (h : ∃ cause, e = .database cause) :
    e.isMiswired = false := by
  obtain ⟨cause, rfl⟩ := h
  rfl

/-- A database whose errors are refusals for a cause it reports. -/
structure Database.Plain (db : Database σ) : Prop where
  query : ∀ sql params s e, .error e ∈ (db.query sql params s).1 → ∃ cause, e = .database cause
  exec : ∀ sql params s e, (db.exec sql params s).1 = .error e → ∃ cause, e = .database cause
  begin : ∀ s e, (db.begin s).1 = .error e → ∃ cause, e = .database cause
  commit : ∀ s e, (db.commit s).1 = .error e → ∃ cause, e = .database cause

/-- The statement of a step fails for a cause of the database, without a row, or
    with another number of rows than one. -/
theorem Database.Plain.isMiswired_run {db : Database σ} (plain : db.Plain) {kind : StepKind}
    {sql : String} {params : List Value} {s s' : σ} {e : AccessError}
    (h : kind.run db.toHandle sql params s = (.error e, s')) : e.isMiswired = false := by
  rw [StepKind.run_eq] at h
  cases kind with
  | queryRow =>
    have first := map_eq_error_iff.1 (Prod.mk.inj h).1
    rcases rows : (db.query sql params s).1 with _ | ⟨row, rest⟩
    · rw [rows] at first
      cases first
      rfl
    · rw [rows] at first
      refine AccessError.isMiswired_of_database (plain.query sql params s e ?_)
      rw [rows, ← (show row = .error e from first)]
      exact List.mem_cons_self
  | query =>
    obtain ⟨row, member, h₁⟩ := exists_of_mapM_eq_error (map_eq_error_iff.1 (Prod.mk.inj h).1)
    rcases bind_eq_error_iff.1 h₁ with rfl | ⟨r, -, h₂⟩
    · exact AccessError.isMiswired_of_database (plain.query sql params s e member)
    · cases h₂
  | exec expectOne =>
    rcases bind_eq_error_iff.1 (Prod.mk.inj h).1 with refused | ⟨r, -, h₁⟩
    · exact AccessError.isMiswired_of_database (plain.exec sql params s e refused)
    · cases expectOne with
      | false => cases h₁
      | true =>
        rcases bind_eq_error_iff.1 h₁ with h₂ | ⟨u, -, h₂⟩
        · rw [ExecResult.checkOne] at h₂
          split at h₂
          · cases h₂
          · cases h₂
            rfl
        · cases h₂
  | insert =>
    have refused := map_eq_error_iff.1 (Prod.mk.inj h).1
    exact AccessError.isMiswired_of_database (plain.exec sql params s e refused)

/-- The answer a step gets by the way it runs. -/
def Answer.Answers : StepKind → Answer → Prop
  | .queryRow, a => ∃ row, a = .row row
  | .query, a => a = .rows
  | .exec _, a | .insert, a => ∃ r, a = .report r

theorem StepKind.answers_run {h : Handle σ} {kind : StepKind} {sql : String} {params : List Value}
    {s s' : σ} {a : Answer} (run : kind.run h sql params s = (.ok a, s')) : a.Answers kind := by
  rw [StepKind.run_eq] at run
  cases kind with
  | queryRow =>
    obtain ⟨row, -, rfl⟩ := map_eq_ok_iff.1 (Prod.mk.inj run).1
    exact ⟨row, rfl⟩
  | query =>
    obtain ⟨rows, -, rfl⟩ := map_eq_ok_iff.1 (Prod.mk.inj run).1
    rfl
  | exec expectOne =>
    obtain ⟨r, -, h₁⟩ := bind_eq_ok_iff.1 (Prod.mk.inj run).1
    cases expectOne with
    | false =>
      cases h₁
      exact ⟨r, rfl⟩
    | true =>
      obtain ⟨_, -, h₂⟩ := bind_eq_ok_iff.1 h₁
      cases h₂
      exact ⟨r, rfl⟩
  | insert =>
    obtain ⟨r, -, rfl⟩ := map_eq_ok_iff.1 (Prod.mk.inj run).1
    exact ⟨r, rfl⟩

theorem ExecResult.isMiswired_insertId {r : ExecResult} {e : AccessError}
    (h : r.insertId = .error e) : e.isMiswired = false := by
  rw [ExecResult.insertId] at h
  split at h
  · cases h
    rfl
  · split at h
    · cases h
      rfl
    · split at h
      · cases h
      · cases h
        rfl

/-- An export that fits its action fails for the report of an insert only. -/
theorem ExportSource.Fits.isMiswired_value {c : Compiled} {x : RoutineExport} {a : Answer}
    {e : AccessError} (fits : x.source.Fits c) (answers : a.Answers c.kind.stepKind)
    (wide : ∀ row, a = .row row → ∀ shape, c.shape = some shape →
      row.width = shape.fields.length)
    (h : x.value a = .error e) : e.isMiswired = false := by
  obtain ⟨source, var⟩ := x
  cases source with
  | column index =>
    obtain ⟨hkind, shape, hshape, bound⟩ := fits
    rw [hkind] at answers
    obtain ⟨row, rfl⟩ := answers
    rw [← wide row rfl shape hshape] at bound
    have read : row.value index = .error e := h
    rw [Row.value, List.getElem?_eq_getElem bound] at read
    cases read
  | insertId =>
    rw [show c.kind.stepKind = .insert from fits] at answers
    obtain ⟨r, rfl⟩ := answers
    exact ExecResult.isMiswired_insertId (map_eq_error_iff.1 h)
  | rowsAffected =>
    obtain ⟨expectOne, hkind⟩ := fits
    rw [hkind] at answers
    obtain ⟨r, rfl⟩ := answers
    cases h

theorem exists_of_exportAll_eq_error {a : Answer} {es : List RoutineExport} {vars : Variables}
    {e : AccessError} (h : exportAll a vars es = .error e) : ∃ x ∈ es, x.value a = .error e := by
  induction es generalizing vars with
  | nil => cases h
  | cons x rest ih =>
    rcases bind_eq_error_iff.1 h with failed | ⟨v, -, h₁⟩
    · exact ⟨x, by simp, failed⟩
    · obtain ⟨x', member, failed⟩ := ih h₁
      exact ⟨x', List.mem_cons_of_mem _ member, failed⟩

/-! ## Steps of a plan as they run -/

/-- A planned step as it runs, given the arguments of the caller. -/
def PlannedStep.routineStep (caller : String → Value) (step : PlannedStep) : RoutineStep where
  action := step.action
  sql := step.sql
  kind := step.kind
  args := step.args.map (·.resolve caller)
  exports := step.exports.map fun e => ⟨e.source, e.var⟩

theorem Plan.steps_routine (p : Plan) (caller : String → Value) :
    (p.routine caller).steps = p.steps.map (·.routineStep caller) := rfl

theorem PlannedStep.exportedNames_routineStep (caller : String → Value) (step : PlannedStep) :
    (step.routineStep caller).exports.map (·.var) = step.exports.map (·.var) := by
  rw [PlannedStep.routineStep, List.map_map]
  rfl

/-- The arguments of a checked step can be resolved when the variables of the run
    are those of the table. -/
theorem PlannedStep.Checked.resolve_ne_error {c : Compiled} {table : List Variable}
    {step : PlannedStep} (checked : step.Checked c table) {vars : Variables}
    (agree : vars.names = table.map (·.name)) (caller : String → Value) (e : AccessError) :
    (step.routineStep caller).args.mapM (RoutineArg.resolve vars) ≠ .error e := by
  intro h
  obtain ⟨arg, member, failed⟩ := exists_of_mapM_eq_error h
  obtain ⟨source, hsource, rfl⟩ := List.mem_map.1 member
  cases source with
  | caller name => cases failed
  | literal v => cases failed
  | var name =>
    have known : name ∈ vars.names := by
      rw [agree]
      exact checked.args name hsource
    obtain ⟨v, hv⟩ := Variables.lookup_isSome_iff.2 known
    have missing := (Variables.get_eq_error_iff.1 (show vars.get name = .error e from failed)).1
    rw [hv] at missing
    cases missing

/-- The names in the table after a step are those that its exports leave. -/
theorem PlannedStep.names_varsAfter (table : List Variable) (step : PlannedStep) :
    (step.varsAfter table).map (·.name) =
      (step.exports.map (·.var)).foldl exportName (table.map (·.name)) := by
  rw [PlannedStep.varsAfter]
  induction step.exports generalizing table with
  | nil => rfl
  | cons e rest ih =>
    rw [List.foldl_cons, ih, List.map_cons, List.foldl_cons]
    congr 1
    rw [exportVariable, exportName, List.map_append, List.filter_map]
    rfl

/-- As steps of a plan pass, the variables of the run stay those of its table. -/
theorem Planned.simulates {o : Options} {table table' : List Variable}
    {steps : List TransactionStep} {planned : List PlannedStep}
    (plan : Planned o table steps planned table') {caller : String → Value} {h : Handle σ}
    {vars vars' : Variables} {s s' : σ} {passed : List Performed} {rest : List RoutineStep}
    (agree : vars.names = table.map (·.name)) (passes : Passes h vars s passed vars' s')
    (cut : planned.map (·.routineStep caller) = passed.map (·.step) ++ rest) :
    ∃ mid ahead, Planned o mid (steps.drop passed.length) ahead table' ∧
      rest = ahead.map (·.routineStep caller) ∧ vars'.names = mid.map (·.name) := by
  induction passes generalizing table steps planned with
  | nil => exact ⟨table, planned, plan, cut.symm, agree⟩
  | @cons _ _ _ _ _ _ p ps _ _ exported _ ih =>
    cases plan with
    | nil => cases cut
    | @cons _ _ _ _ first _ others _ _ plan =>
      rw [List.map_cons, List.map_cons, List.cons_append, List.cons.injEq] at cut
      refine ih plan ?_ cut.2
      rw [← cut.1] at exported
      rw [names_exportAll exported, agree, PlannedStep.names_varsAfter,
        PlannedStep.exportedNames_routineStep]

/-! ## Runs of a plan -/

/-- A run of the routine from a state fetches a row in its step `k`, counted from
    zero. -/
def Routine.Fetches (db : Database σ) (r : Routine) (s : σ) (k : Nat) (row : Row) : Prop :=
  ∃ passed step after vars params s₁ s₂ s₃, passed.length = k ∧
    r.steps = passed.map Performed.step ++ step :: after ∧ db.begin s = (.ok (), s₁) ∧
    Passes db.toHandle {} s₁ passed vars s₂ ∧
    step.args.mapM (RoutineArg.resolve vars) = .ok params ∧
    step.kind.run db.toHandle step.sql params s₂ = (.ok (.row row), s₃)

/-- The rows that a run fetches have as many columns as the shapes of its
    steps. -/
def Transaction.RowsFit (o : Options) (t : Transaction) (db : Database σ) (r : Routine)
    (s : σ) : Prop :=
  ∀ k row, r.Fetches db s k row → ∀ step c shape, t.steps[k]? = some step →
    step.action.compile o = .ok c → c.shape = some shape → row.width = shape.fields.length

/-- A checked step among the variables of its table is not wired wrong. -/
theorem PlannedStep.Checked.isMiswired_run {db : Database σ} (plain : db.Plain) {c : Compiled}
    {table : List Variable} {step : PlannedStep} (checked : step.Checked c table)
    {vars : Variables} (agree : vars.names = table.map (·.name)) {caller : String → Value}
    {s s' : σ}
    (wide : ∀ params row s₁, (step.routineStep caller).args.mapM (RoutineArg.resolve vars) =
      .ok params → step.kind.run db.toHandle step.sql params s = (.ok (.row row), s₁) →
      ∀ shape, c.shape = some shape → row.width = shape.fields.length)
    {e : AccessError}
    (run : (step.routineStep caller).run db.toHandle vars s = (.error e, s')) :
    e.isMiswired = false := by
  rcases RoutineStep.run_eq_error run with unresolved | ⟨params, resolved, failed | answer⟩
  · exact absurd unresolved (checked.resolve_ne_error agree caller e)
  · exact plain.isMiswired_run failed
  · obtain ⟨answer, answered, unexported⟩ := answer
    obtain ⟨x, member, failed⟩ := exists_of_exportAll_eq_error unexported
    obtain ⟨x', hx', rfl⟩ := List.mem_map.1 member
    have answers : answer.Answers c.kind.stepKind := checked.kind ▸ StepKind.answers_run answered
    refine ExportSource.Fits.isMiswired_value (checked.exports x' hx') answers ?_ failed
    rintro row rfl
    exact wide params row s' resolved answered

/-- The routine of a plan is not wired wrong. -/
theorem Transaction.isMiswired_run {o : Options} {t : Transaction} {p : Plan}
    (plan : t.plan o = .ok p) {caller : String → Value} {db : Database σ} (plain : db.Plain)
    {s s' : σ} (fit : t.RowsFit o db (p.routine caller) s) {e : AccessError}
    (run : (p.routine caller).run db s = (.error e, s')) : e.isMiswired = false := by
  rcases begun : db.begin s with ⟨e' | ⟨⟨⟩⟩, s₁⟩
  · rw [Routine.run, begun] at run
    cases run
    exact AccessError.isMiswired_of_database (plain.begin s e (by rw [begun]))
  · rw [Routine.run_of_begin _ begun] at run
    split at run
    · next e' s₂ ran =>
      cases run
      obtain ⟨passed, step, after, vars, s₃, steps, passes, failed⟩ := runSteps_eq_error_iff.1 ran
      obtain ⟨table, planned, -⟩ := Transaction.plan_eq_ok plan
      obtain ⟨mid, ahead, ahead_planned, cut, agree⟩ := planned.simulates rfl passes steps
      rw [eq_comm, List.map_eq_cons_iff] at cut
      obtain ⟨next, others, rfl, rfl, -⟩ := cut
      generalize remaining : t.steps.drop passed.length = ahead_steps at ahead_planned
      cases ahead_planned with
      | @cons _ _ origin c _ _ _ compiled checked _ =>
        have found : t.steps[passed.length]? = some origin := by
          rw [← List.head?_drop, remaining, List.head?_cons]
        refine checked.isMiswired_run plain agree ?_ failed
        intro params row s₄ resolved answered shape hshape
        have fetched : (p.routine caller).Fetches db s passed.length row :=
          ⟨passed, _, _, vars, params, s₁, s₃, s₄, rfl, steps, begun, passes, resolved, answered⟩
        exact fit passed.length row fetched origin c shape found compiled hshape
    · next vars s₂ ran =>
      have refused := map_eq_error_iff.1 (Prod.mk.inj run).1
      exact AccessError.isMiswired_of_database (plain.commit s₂ e refused)

/-- A run of a planned transaction fails neither for a variable that is not set
    nor for a column that is not there. After any number of its steps it holds
    exactly the variables that these export, each with the value of its last
    export. -/
theorem Transaction.run_of_plan {o : Options} {t : Transaction} {p : Plan}
    (plan : t.plan o = .ok p) (caller : String → Value) {db : Database σ} (plain : db.Plain)
    {s : σ} (fit : t.RowsFit o db (p.routine caller) s) :
    (∀ e s', (p.routine caller).run db s = (.error e, s') →
      (∀ name, e ≠ .missingVariable name) ∧ ∀ index width, e ≠ .columnIndex index width) ∧
    ∀ s₁ k passed vars s₂, db.begin s = (.ok (), s₁) →
      passed.map Performed.step = (p.routine caller).steps.take k →
      Passes db.toHandle {} s₁ passed vars s₂ →
      vars.names.Nodup ∧
      (∀ name, name ∈ vars.names ↔ ∃ step ∈ p.steps.take k, ∃ e ∈ step.exports, e.var = name) ∧
      ∀ name, (vars.entries.lookup name).map Except.ok =
        (passed.flatMap Performed.exports).reverse.lookup name := by
  constructor
  · intro e s' run
    have wired := Transaction.isMiswired_run plan plain fit run
    constructor
    · rintro name rfl
      cases wired
    · rintro index width rfl
      cases wired
  · intro s₁ k passed vars s₂ begun steps passes
    refine ⟨passes.nodup_names (by simp [Variables.names]), ?_, ?_⟩
    · intro name
      have exported : (passed.flatMap fun q => q.step.exports.map (·.var)) =
          (p.steps.take k).flatMap fun step => step.exports.map (·.var) := by
        rw [← List.flatMap_map Performed.step fun step => step.exports.map (·.var), steps,
          Plan.steps_routine, ← List.map_take, List.flatMap_map]
        simp only [PlannedStep.exportedNames_routineStep]
      rw [passes.names, mem_foldl_exportName, exported]
      simp [Variables.names]
    · intro name
      rw [passes.lookup name]
      simp

/-! ## A run on a script -/

theorem Script.database_of_outcome {failure : Option String} {s : List Reply} {e : AccessError}
    (h : (Script.outcome failure s).1 = .error e) : ∃ cause, e = .database cause := by
  cases failure with
  | none => cases h
  | some cause =>
    cases h
    exact ⟨_, rfl⟩

/-- A script reports the causes of its failures. -/
theorem Script.plain_database (failures : Failures) : (Script.database failures).Plain where
  query sql params s e h := by
    have member : .error e ∈ Script.replyRows (Script.next s).1 := h
    cases reply : (Script.next s).1 with
    | rows rows failure =>
      rw [reply, Script.replyRows] at member
      simp only [List.mem_append, List.mem_map, reduceCtorEq, and_false, exists_false,
        false_or] at member
      obtain ⟨cause, -, eq⟩ := member
      cases eq
      exact ⟨_, rfl⟩
    | exec result =>
      rw [reply] at member
      cases member
    | fail cause =>
      rw [reply, Script.replyRows, List.mem_singleton] at member
      cases member
      exact ⟨_, rfl⟩
  exec sql params s e h := by
    have result : Script.replyResult (Script.next s).1 = .error e := h
    cases reply : (Script.next s).1 with
    | rows rows failure =>
      rw [reply] at result
      cases result
    | exec report =>
      rw [reply] at result
      cases result
    | fail cause =>
      rw [reply] at result
      cases result
      exact ⟨_, rfl⟩
  begin s e h := Script.database_of_outcome h
  commit s e h := Script.database_of_outcome h

/-- Posts that count their views. -/
def posts : Table where
  name := "posts"
  databaseName := none
  columns := [.primaryKey "id", (Column.ofScalar "views" .bigInt).asUnsigned]
  distinct := by decide
  finite := by decide

/-- The views of a post. -/
def viewsOfPost : Action :=
  .perform "viewsOfPost" posts (.select {
    mode := .field
    columns := [.column (.ofMain "views") none]
    filter := { conditions := [.equals (.ofMain "id") ⟨"id", .count⟩] } })

/-- New views for a post. -/
def setViews : Action :=
  .perform "setViews" posts (.update {
    assignments := [⟨"views", .param ⟨"views", .count⟩⟩]
    filter := { conditions := [.equals (.ofMain "id") ⟨"id", .count⟩] } })

/-- Writes the views of a post back, and replaces the variable that held them by
    the number of rows. -/
def rewriteViews : Transaction where
  name := "rewriteViews"
  table := posts
  steps := [
    { action := viewsOfPost, exports := [⟨.field "views", "n"⟩] },
    { action := setViews, args := [("views", .var "n")], exports := [⟨.rowsAffected, "n"⟩] }]
  returns := ["n"]

/-- Five views, and a refusal. -/
def refusal : List Reply := [.rows [⟨[.int 5]⟩] none, .fail "gone"]

theorem rewriteViews_rowsFit {p : Plan} (plan : rewriteViews.plan {} = .ok p) :
    rewriteViews.RowsFit {} (Script.database {}) (p.routine fun _ => .int 7) refusal := by
  rintro k row ⟨passed, step, after, vars, params, s₁, s₂, s₃, rfl, steps, begun, passes, resolved,
    answered⟩ origin c shape found compiled hshape
  cases plan
  cases passed with
  | nil =>
    cases found
    cases compiled
    cases hshape
    cases steps
    cases begun
    cases passes
    cases resolved
    cases answered
    rfl
  | cons q qs =>
    cases qs with
    | nil =>
      cases found
      cases compiled
      cases hshape
    | cons q' qs => cases found

/-- The second step is refused after the first has set its variable. -/
theorem rewriteViews_run :
    ∃ p passed vars s₂, rewriteViews.plan {} = .ok p ∧ (Script.database {}).Plain ∧
      rewriteViews.RowsFit {} (Script.database {}) (p.routine fun _ => .int 7) refusal ∧
      passed.map Performed.step = (p.routine fun _ => .int 7).steps.take 1 ∧
      Passes (Script.database {}).toHandle {} refusal passed vars s₂ ∧
      (∃ e s', (p.routine fun _ => .int 7).run (Script.database {}) refusal = (.error e, s') ∧
        ∀ name, e ≠ .missingVariable name) ∧
      (vars.entries.lookup "n").map Except.ok =
        (passed.flatMap Performed.exports).reverse.lookup "n" ∧
      vars.entries.lookup "n" = some (.int 5) := by
  have planned : ∃ p, rewriteViews.plan {} = .ok p := ⟨_, rfl⟩
  obtain ⟨p, plan⟩ := planned
  have fit := rewriteViews_rowsFit plan
  obtain ⟨wired, held⟩ :=
    Transaction.run_of_plan plan (fun _ => .int 7) (Script.plain_database {}) fit
  have ran : ∃ vars s₂, runSteps (Script.database {}).toHandle {}
      ((p.routine fun _ => .int 7).steps.take 1) refusal = (.ok vars, s₂) ∧
      vars.entries.lookup "n" = some (.int 5) := by
    cases plan
    exact ⟨_, _, rfl, rfl⟩
  have failed : ∃ e s', (p.routine fun _ => .int 7).run (Script.database {}) refusal =
      (.error e, s') := by
    cases plan
    exact ⟨_, _, rfl⟩
  obtain ⟨vars, s₂, ran, five⟩ := ran
  obtain ⟨passed, steps, passes⟩ := runSteps_eq_ok_iff.1 ran
  obtain ⟨e, s', failed⟩ := failed
  exact ⟨p, passed, vars, s₂, plan, Script.plain_database {}, fit, steps.symm, passes,
    ⟨e, s', failed, (wired e s' failed).1⟩,
    (held refusal 1 passed vars s₂ rfl steps.symm passes).2.2 "n", five⟩

end Bindery
