import Bindery.Proofs.Access.Performed

/-!
# The course of a run

Which calls a routine makes on its database, and how it ends: after a begin come
the statements of its steps up to the first that fails, then one rollback or one
commit, and nothing behind it. The log of the database has these calls in order.

* `StepKind.run_logged`: a statement is one call.
* `Routine.Course`: the calls, the result and the last state of a run.
* `Routine.course_run`: every run takes such a course.
-/

namespace Bindery

variable {σ : Type}

/-! ## Calls -/

/-- The call for a statement. -/
def StepKind.call (sql : String) (params : List Value) : StepKind → Event
  | .queryRow | .query => .query sql params
  | .exec _ | .insert => .exec sql params

/-- The call of a step among the variables of the moment, if its arguments can be
    resolved. -/
def RoutineStep.call? (vars : Variables) (step : RoutineStep) : Option Event :=
  match step.args.mapM (RoutineArg.resolve vars) with
  | .ok params => some (step.kind.call step.sql params)
  | .error _ => none

/-- The call of a step that passed. -/
def Performed.call (p : Performed) : Event := p.step.kind.call p.step.sql p.params

/-- A statement is one call. -/
theorem StepKind.run_logged (db : Database σ) (sql : String) (params : List Value)
    (kind : StepKind) (s : σ) (log : List Event) :
    kind.run db.logged.toHandle sql params (s, log) =
      ((kind.run db.toHandle sql params s).1,
        ((kind.run db.toHandle sql params s).2, log ++ [kind.call sql params])) := by
  rw [StepKind.run_eq, StepKind.run_eq]
  cases kind with
  | queryRow => rfl
  | query => rfl
  | exec expectOne => rfl
  | insert => rfl

/-- A step makes its call if it has one. -/
theorem RoutineStep.run_logged (db : Database σ) (vars : Variables) (step : RoutineStep) (s : σ)
    (log : List Event) :
    step.run db.logged.toHandle vars (s, log) =
      ((step.run db.toHandle vars s).1,
        ((step.run db.toHandle vars s).2, log ++ (step.call? vars).toList)) := by
  rw [RoutineStep.run_eq, RoutineStep.run_eq, RoutineStep.call?]
  cases step.args.mapM (RoutineArg.resolve vars) with
  | error e => simp
  | ok params =>
    dsimp only
    rw [StepKind.run_logged]
    rcases step.kind.run db.toHandle step.sql params s with ⟨e | answer, s'⟩
    · rfl
    · rfl

/-- Steps make the calls of those that pass, and the call of the one that fails
    if it has one. -/
theorem Passes.runSteps_logged {db : Database σ} {vars vars' : Variables} {s s' : σ}
    {ps : List Performed} (passes : Passes db.toHandle vars s ps vars' s')
    (after : List RoutineStep) (log : List Event) :
    runSteps db.logged.toHandle vars (ps.map (·.step) ++ after) (s, log) =
      runSteps db.logged.toHandle vars' after (s', log ++ ps.map Performed.call) := by
  induction passes generalizing log with
  | nil => simp
  | cons resolved answered exported _ ih =>
    rw [List.map_cons, List.cons_append, runSteps_cons, RoutineStep.run_logged,
      RoutineStep.run_eq_ok_iff.2 ⟨_, _, resolved, answered, exported⟩]
    dsimp only
    rw [ih, RoutineStep.call?, resolved]
    simp [Performed.call]

/-! ## Routines -/

/-- The calls, the result and the last state of a run of a routine from a state. -/
inductive Routine.Course (db : Database σ) (r : Routine) (s : σ) :
    List Event → Except AccessError Variables → σ → Prop
  /-- The database refuses to begin. -/
  | refused {e : AccessError} {s₁ : σ} (begun : db.begin s = (.error e, s₁)) :
      Routine.Course db r s [.begin] (.error e) s₁
  /-- A step fails behind those that pass. Its error is the result, whatever comes
      of the rollback. -/
  | rolledBack {passed : List Performed} {step : RoutineStep} {after : List RoutineStep}
      {vars : Variables} {e : AccessError} {outcome : Except AccessError Unit} {s₁ s₂ s₃ s₄ : σ}
      (begun : db.begin s = (.ok (), s₁))
      (steps : r.steps = passed.map (·.step) ++ step :: after)
      (passes : Passes db.toHandle {} s₁ passed vars s₂)
      (failed : step.run db.toHandle vars s₂ = (.error e, s₃))
      (ended : db.rollback s₃ = (outcome, s₄)) :
      Routine.Course db r s
        (.begin :: passed.map Performed.call ++ (step.call? vars).toList ++ [.rollback])
        (.error e) s₄
  /-- All steps pass. The result is that of the commit, with the variables. -/
  | committed {passed : List Performed} {vars : Variables} {outcome : Except AccessError Unit}
      {s₁ s₂ s₃ : σ}
      (begun : db.begin s = (.ok (), s₁))
      (steps : r.steps = passed.map (·.step))
      (passes : Passes db.toHandle {} s₁ passed vars s₂)
      (ended : db.commit s₂ = (outcome, s₃)) :
      Routine.Course db r s (.begin :: passed.map Performed.call ++ [.commit])
        (outcome.map fun _ => vars) s₃

/-- Whether a call ends a transaction. -/
def Event.isEnd : Event → Bool
  | .commit | .rollback => true
  | .query _ _ | .exec _ _ | .begin => false

theorem StepKind.isEnd_call (sql : String) (params : List Value) (kind : StepKind) :
    (kind.call sql params).isEnd = false := by
  cases kind <;> rfl

theorem RoutineStep.isEnd_call? {vars : Variables} {step : RoutineStep} {e : Event}
    (h : step.call? vars = some e) : e.isEnd = false := by
  rw [RoutineStep.call?] at h
  split at h
  · cases h
    exact StepKind.isEnd_call _ _ _
  · cases h

/-- In a list of calls that ends no transaction before its last call, nothing
    stands behind one that does. -/
theorem behind_eq_nil_of_isEnd {calls before behind : List Event} {last e : Event}
    (none : ∀ c ∈ calls, c.isEnd = false) (cut : calls ++ [last] = before ++ e :: behind)
    (ends : e.isEnd = true) : behind = [] := by
  rcases List.eq_nil_or_concat behind with rfl | ⟨behind', c, rfl⟩
  · rfl
  · rw [List.concat_eq_append, ← List.cons_append, ← List.append_assoc] at cut
    have calls_eq : calls = before ++ e :: behind' := (List.append_inj' cut rfl).1
    have member : e ∈ calls := by simp [calls_eq]
    rw [none e member] at ends
    cases ends

theorem Routine.Course.behind_eq_nil {db : Database σ} {r : Routine} {s s' : σ}
    {trace before behind : List Event} {result : Except AccessError Variables} {e : Event}
    (course : r.Course db s trace result s') (cut : trace = before ++ e :: behind)
    (ends : e.isEnd = true) : behind = [] := by
  have passed_none : ∀ (passed : List Performed), ∀ c ∈ passed.map Performed.call,
      c.isEnd = false := by
    intro passed c hc
    obtain ⟨p, -, rfl⟩ := List.mem_map.1 hc
    exact StepKind.isEnd_call _ _ _
  cases course with
  | refused _ =>
    rw [← List.nil_append [Event.begin]] at cut
    exact behind_eq_nil_of_isEnd (by simp) cut ends
  | @rolledBack passed step _ vars _ _ _ _ _ _ begun steps passes failed ended =>
    refine behind_eq_nil_of_isEnd ?_ cut ends
    intro c hc
    rw [List.mem_append, List.mem_cons] at hc
    rcases hc with (rfl | hc) | hc
    · rfl
    · exact passed_none passed c hc
    · exact RoutineStep.isEnd_call? (Option.mem_toList.1 hc)
  | @committed passed _ _ _ _ _ begun steps passes ended =>
    refine behind_eq_nil_of_isEnd ?_ cut ends
    intro c hc
    rcases List.mem_cons.1 hc with rfl | hc
    · rfl
    · exact passed_none passed c hc

/-- A routine commits only after all its steps. -/
theorem Routine.Course.runSteps_of_commit {db : Database σ} {r : Routine} {s s' : σ}
    {trace : List Event} {result : Except AccessError Variables}
    (course : r.Course db s trace result s') (member : .commit ∈ trace) :
    ∃ vars s₁ s₂, db.begin s = (.ok (), s₁) ∧
      runSteps db.toHandle {} r.steps s₁ = (.ok vars, s₂) := by
  cases course with
  | refused _ => simp at member
  | rolledBack begun steps passes failed ended =>
    -- The commit would have to be the last call, which is the rollback.
    obtain ⟨before, behind, cut⟩ := List.append_of_mem member
    have last := Routine.Course.behind_eq_nil (.rolledBack begun steps passes failed ended) cut rfl
    rw [last] at cut
    exact absurd (List.append_inj' cut rfl).2 (by decide)
  | committed begun steps passes ended =>
    exact ⟨_, _, _, begun, runSteps_eq_ok_iff.2 ⟨_, steps, passes⟩⟩

/-- What a routine does after its begin, by the outcome of its steps. -/
theorem Routine.run_of_begin {db : Database σ} (r : Routine) {s s₁ : σ}
    (begun : db.begin s = (.ok (), s₁)) :
    r.run db s =
      match runSteps db.toHandle {} r.steps s₁ with
      | (.error e, s₂) => (.error e, (db.rollback s₂).2)
      | (.ok vars, s₂) => ((db.commit s₂).1.map fun _ => vars, (db.commit s₂).2) := by
  rw [Routine.run, begun]
  dsimp only
  rcases runSteps db.toHandle {} r.steps s₁ with ⟨e | vars, s₂⟩
  · rfl
  · dsimp only
    rcases db.commit s₂ with ⟨e | u, s₃⟩
    · rfl
    · rfl

/-- A begin that succeeds is one call. -/
theorem Database.logged_begin {db : Database σ} {s s₁ : σ} {outcome : Except AccessError Unit}
    (begun : db.begin s = (outcome, s₁)) (log : List Event) :
    db.logged.begin (s, log) = (outcome, (s₁, log ++ [.begin])) := by
  show ((db.begin s).1, ((db.begin s).2, log ++ [Event.begin])) = _
  rw [begun]

theorem Routine.exists_course (db : Database σ) (r : Routine) (s : σ) (log : List Event) :
    ∃ trace result s', r.run db s = (result, s') ∧
      r.run db.logged (s, log) = (result, (s', log ++ trace)) ∧ r.Course db s trace result s' := by
  rcases begun : db.begin s with ⟨e | ⟨⟨⟩⟩, s₁⟩
  · refine ⟨[.begin], .error e, s₁, ?_, ?_, .refused begun⟩
    · rw [Routine.run, begun]
    · rw [Routine.run, Database.logged_begin begun]
  · have begun_logged := Database.logged_begin begun log
    rcases ran : runSteps db.toHandle {} r.steps s₁ with ⟨e | vars, s₂⟩
    · obtain ⟨passed, step, after, vars, s₃, steps, passes, failed⟩ := runSteps_eq_error_iff.1 ran
      refine ⟨_, .error e, (db.rollback s₂).2, ?_, ?_,
        .rolledBack begun steps passes failed rfl⟩
      · rw [Routine.run_of_begin r begun, ran]
      · rw [Routine.run_of_begin r begun_logged, steps, passes.runSteps_logged, runSteps_cons,
          RoutineStep.run_logged, failed]
        show (Except.error e, ((db.rollback s₂).2, _)) = _
        simp
    · obtain ⟨passed, steps, passes⟩ := runSteps_eq_ok_iff.1 ran
      refine ⟨_, (db.commit s₂).1.map fun _ => vars, (db.commit s₂).2, ?_, ?_,
        .committed begun steps passes rfl⟩
      · rw [Routine.run_of_begin r begun, ran]
      · have ran_logged := passes.runSteps_logged [] (log ++ [.begin])
        rw [List.append_nil] at ran_logged
        rw [Routine.run_of_begin r begun_logged, steps, ran_logged]
        show ((db.commit s₂).1.map _, ((db.commit s₂).2, _)) = _
        simp

/-- Every run takes a course, and the log has its calls in order. Nothing stands
    behind a commit or a rollback, and there is no commit unless all steps
    pass. -/
theorem Routine.course_run (db : Database σ) (r : Routine) (s : σ) (log : List Event) :
    ∃ trace result s', r.run db s = (result, s') ∧
      r.run db.logged (s, log) = (result, (s', log ++ trace)) ∧
      r.Course db s trace result s' ∧
      (∀ e before behind, trace = before ++ e :: behind → e = .commit ∨ e = .rollback →
        behind = []) ∧
      (.commit ∈ trace → ∃ vars s₁ s₂, db.begin s = (.ok (), s₁) ∧
        runSteps db.toHandle {} r.steps s₁ = (.ok vars, s₂)) := by
  obtain ⟨trace, result, s', plain, logged, course⟩ := r.exists_course db s log
  refine ⟨trace, result, s', plain, logged, course, ?_, course.runSteps_of_commit⟩
  rintro e before behind cut (rfl | rfl)
  · exact course.behind_eq_nil cut rfl
  · exact course.behind_eq_nil cut rfl

end Bindery
