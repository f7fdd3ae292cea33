import Bindery.Access.Routine
import Bindery.Proofs.Outcome

/-!
# Steps that were performed

A step passes in three stages: its arguments are resolved among the variables of
the moment, its statement gets an answer, and its exports are taken from the
answer. A run of steps passes all of them, or passes some and stops at the next.

* `StepKind.run_eq`: what a step makes of the answer to its statement.
* `RoutineStep.run_eq`: the stages of a step.
* `Passes`: steps that pass one after the other, with what each was given and
  answered.
* `runSteps_eq_ok_iff`: the runs without an error are those that pass.
* `runSteps_eq_error_iff`: the runs with an error stop at the first step that
  fails.
-/

namespace Bindery

variable {σ α β : Type}

/-! ## Sessions -/

namespace Session

theorem bind_apply (x : Session σ α) (f : α → Session σ β) (s : σ) :
    (x >>= f) s =
      match x s with
      | (.ok a, s') => f a s'
      | (.error e, s') => (.error e, s') := by
  show ExceptT.bind x f s = _
  simp only [ExceptT.bind, ExceptT.mk, bind, StateT.bind]
  cases x s with
  | mk r s' => cases r <;> rfl

theorem lift_apply (r : Except AccessError α) (s : σ) :
    (ExceptT.mk (pure r) : Session σ α) s = (r, s) := rfl

theorem liftM_apply (x : StateM σ α) (s : σ) :
    (liftM x : Session σ α) s = (.ok (x s).1, (x s).2) := rfl

theorem map_apply (f : α → β) (x : Session σ α) (s : σ) :
    (f <$> x) s = ((x s).1.map f, (x s).2) := by
  show ExceptT.map f x s = _
  simp only [ExceptT.map, ExceptT.mk, bind, StateT.bind]
  cases x s with
  | mk r s' => cases r <;> rfl

end Session

/-! ## Answers to a statement -/

/-- The row that is fetched alone. -/
def firstRow : List (Except AccessError Row) → Except AccessError Row
  | [] => .error .notFound
  | row :: _ => row

/-- What a step makes of the report of a write. -/
def reportAnswer (expectOne : Bool) (r : ExecResult) : Except AccessError Answer := do
  if expectOne then r.checkOne
  return .report r

theorem Handle.fetchOne_apply (h : Handle σ) (sql : String) (params : List Value) (s : σ) :
    h.fetchOne sql params .ok s =
      (firstRow (h.query sql params s).1, (h.query sql params s).2) := by
  rw [Handle.fetchOne, Session.bind_apply, Handle.queryRow, Session.bind_apply,
    Session.liftM_apply]
  rcases (h.query sql params s).1 with _ | ⟨e | row, rest⟩
  · rfl
  · rfl
  · rfl

/-- A step looks at the answer to one query or one execution. -/
theorem StepKind.run_eq (h : Handle σ) (sql : String) (params : List Value) (kind : StepKind)
    (s : σ) :
    kind.run h sql params s =
      match kind with
      | .queryRow =>
        ((firstRow (h.query sql params s).1).map .row, (h.query sql params s).2)
      | .query =>
        ((readAll .ok (h.query sql params s).1).map fun _ => .rows, (h.query sql params s).2)
      | .exec expectOne =>
        ((h.exec sql params s).1.bind (reportAnswer expectOne), (h.exec sql params s).2)
      | .insert => ((h.exec sql params s).1.map .report, (h.exec sql params s).2) := by
  cases kind with
  | queryRow => rw [StepKind.run, Session.map_apply, Handle.fetchOne_apply]
  | query =>
    rw [StepKind.run, Session.map_apply]
    rfl
  | exec expectOne =>
    rw [StepKind.run, Session.bind_apply]
    rcases h.exec sql params s with ⟨e | r, s'⟩
    · rfl
    · cases expectOne with
      | false => rfl
      | true =>
        simp only [↓reduceIte, Session.bind_apply, Session.lift_apply, Except.bind, reportAnswer]
        cases r.checkOne with
        | error e => rfl
        | ok _ => rfl
  | insert => rw [StepKind.run, Session.map_apply]

/-! ## One step -/

/-- The stages of a step. -/
theorem RoutineStep.run_eq (h : Handle σ) (vars : Variables) (step : RoutineStep) (s : σ) :
    step.run h vars s =
      match step.args.mapM (RoutineArg.resolve vars) with
      | .error e => (.error e, s)
      | .ok params =>
        match step.kind.run h step.sql params s with
        | (.error e, s') => (.error e, s')
        | (.ok answer, s') => (exportAll answer vars step.exports, s') := by
  rw [RoutineStep.run, Session.bind_apply, Session.lift_apply]
  cases step.args.mapM (RoutineArg.resolve vars) with
  | error e => rfl
  | ok params =>
    dsimp only
    rw [Session.bind_apply]
    rcases step.kind.run h step.sql params s with ⟨e | answer, s'⟩
    · rfl
    · rfl

/-- A step passes if and only if all its stages do. -/
theorem RoutineStep.run_eq_ok_iff {h : Handle σ} {vars vars' : Variables} {step : RoutineStep}
    {s s' : σ} :
    step.run h vars s = (.ok vars', s') ↔
      ∃ params answer, step.args.mapM (RoutineArg.resolve vars) = .ok params ∧
        step.kind.run h step.sql params s = (.ok answer, s') ∧
        exportAll answer vars step.exports = .ok vars' := by
  rw [RoutineStep.run_eq]
  constructor
  · intro run
    split at run
    · cases run
    · next params resolved =>
      split at run
      · cases run
      · next answer s₁ answered =>
        obtain ⟨exported, rfl⟩ := Prod.mk.inj run
        exact ⟨params, answer, resolved, answered, exported⟩
  · rintro ⟨params, answer, resolved, answered, exported⟩
    simp only [resolved, answered, exported]

/-- A step fails in one of its stages. -/
theorem RoutineStep.run_eq_error {h : Handle σ} {vars : Variables} {step : RoutineStep}
    {e : AccessError} {s s' : σ} (run : step.run h vars s = (.error e, s')) :
    step.args.mapM (RoutineArg.resolve vars) = .error e ∨
      ∃ params, step.args.mapM (RoutineArg.resolve vars) = .ok params ∧
        (step.kind.run h step.sql params s = (.error e, s') ∨
          ∃ answer, step.kind.run h step.sql params s = (.ok answer, s') ∧
            exportAll answer vars step.exports = .error e) := by
  rw [RoutineStep.run_eq] at run
  split at run
  · next resolved =>
    cases run
    exact .inl resolved
  · next params resolved =>
    refine .inr ⟨params, resolved, ?_⟩
    split at run
    · next answered =>
      cases run
      exact .inl answered
    · next answer s₁ answered =>
      obtain ⟨exported, rfl⟩ := Prod.mk.inj run
      exact .inr ⟨answer, answered, exported⟩

/-! ## Steps one after the other -/

/-- A step that passed, with the values it was given and the answer it got. -/
structure Performed where
  step : RoutineStep
  params : List Value
  answer : Answer

/-- Steps that pass one after the other, from variables and a state to variables
    and a state. Each step resolves its arguments among the variables that the
    steps before it leave. -/
inductive Passes (h : Handle σ) : Variables → σ → List Performed → Variables → σ → Prop
  | nil {vars : Variables} {s : σ} : Passes h vars s [] vars s
  | cons {vars vars₁ vars₂ : Variables} {s s₁ s₂ : σ} {p : Performed} {ps : List Performed}
      (resolved : p.step.args.mapM (RoutineArg.resolve vars) = .ok p.params)
      (answered : p.step.kind.run h p.step.sql p.params s = (.ok p.answer, s₁))
      (exported : exportAll p.answer vars p.step.exports = .ok vars₁)
      (rest : Passes h vars₁ s₁ ps vars₂ s₂) : Passes h vars s (p :: ps) vars₂ s₂

theorem runSteps_cons (h : Handle σ) (vars : Variables) (step : RoutineStep)
    (rest : List RoutineStep) (s : σ) :
    runSteps h vars (step :: rest) s =
      match step.run h vars s with
      | (.ok vars', s') => runSteps h vars' rest s'
      | (.error e, s') => (.error e, s') := by
  rw [runSteps, Session.bind_apply]
  rcases step.run h vars s with ⟨e | vars', s'⟩
  · rfl
  · rfl

/-- Steps run without an error if and only if they pass. -/
theorem runSteps_eq_ok_iff {h : Handle σ} {vars vars' : Variables} {steps : List RoutineStep}
    {s s' : σ} :
    runSteps h vars steps s = (.ok vars', s') ↔
      ∃ ps, steps = ps.map (·.step) ∧ Passes h vars s ps vars' s' := by
  induction steps generalizing vars s with
  | nil =>
    constructor
    · intro run
      cases run
      exact ⟨[], rfl, .nil⟩
    · rintro ⟨ps, hps, passes⟩
      rw [eq_comm, List.map_eq_nil_iff] at hps
      subst hps
      cases passes
      rfl
  | cons step rest ih =>
    rw [runSteps_cons]
    constructor
    · intro run
      split at run
      · next vars₁ s₁ first =>
        obtain ⟨params, answer, resolved, answered, exported⟩ := RoutineStep.run_eq_ok_iff.1 first
        obtain ⟨ps, rfl, passes⟩ := ih.1 run
        exact ⟨⟨step, params, answer⟩ :: ps, rfl, .cons resolved answered exported passes⟩
      · cases run
    · rintro ⟨ps, hps, passes⟩
      cases passes with
      | nil => cases hps
      | cons resolved answered exported passes =>
        cases hps
        rw [RoutineStep.run_eq_ok_iff.2 ⟨_, _, resolved, answered, exported⟩]
        exact ih.2 ⟨_, rfl, passes⟩

/-- Steps run into an error if and only if some of them pass and the next one
    fails with it. -/
theorem runSteps_eq_error_iff {h : Handle σ} {vars : Variables} {steps : List RoutineStep}
    {e : AccessError} {s s' : σ} :
    runSteps h vars steps s = (.error e, s') ↔
      ∃ ps step after vars₁ s₁, steps = ps.map (·.step) ++ step :: after ∧
        Passes h vars s ps vars₁ s₁ ∧ step.run h vars₁ s₁ = (.error e, s') := by
  induction steps generalizing vars s with
  | nil =>
    constructor
    · intro run
      cases run
    · rintro ⟨ps, step, after, _, _, hsteps, -⟩
      simp at hsteps
  | cons step rest ih =>
    rw [runSteps_cons]
    constructor
    · intro run
      split at run
      · next vars₁ s₁ first =>
        obtain ⟨params, answer, resolved, answered, exported⟩ := RoutineStep.run_eq_ok_iff.1 first
        obtain ⟨ps, step', after, vars₂, s₂, rfl, passes, failed⟩ := ih.1 run
        exact ⟨⟨step, params, answer⟩ :: ps, step', after, vars₂, s₂, rfl,
          .cons resolved answered exported passes, failed⟩
      · next e' s₁ first =>
        cases run
        exact ⟨[], step, rest, vars, s, rfl, .nil, first⟩
    · rintro ⟨ps, step', after, vars₂, s₂, hsteps, passes, failed⟩
      cases passes with
      | nil =>
        cases hsteps
        rw [failed]
      | cons resolved answered exported passes =>
        cases hsteps
        rw [RoutineStep.run_eq_ok_iff.2 ⟨_, _, resolved, answered, exported⟩]
        exact ih.2 ⟨_, _, _, _, _, rfl, passes, failed⟩

end Bindery
