import Bindery.Proofs.Outcome
import Bindery.Transaction.Plan

/-!
# Steps that were planned

What the checks of a plan establish: every variable a step reads is exported
before it, and every export fits the way its step runs.

* `PlannedStep.Checked`: a step that passed its checks, among the variables
  exported before it.
* `Planned`: steps that passed their checks one after the other.
* `Transaction.plan_eq_ok`: a plan consists of such steps, and returns variables
  that are exported.
-/

namespace Bindery

/-! ## Arguments -/

/-- The source of a placeholder is a variable only if it is exported before. -/
theorem planArgument_eq_ok {number : Nat} {step : TransactionStep} {c : Compiled}
    {vars args args' : List Variable} {b : Binding} {name : String}
    (h : planArgument number step c vars args b = .ok (.var name, args')) :
    name ∈ vars.map (·.name) := by
  rw [planArgument] at h
  split at h
  · cases h
  · split at h
    · cases h
    · split at h
      · next known =>
        cases h
        simpa using known
      · cases h
    · obtain ⟨_, -, h₁⟩ := map_eq_ok_iff.1 h
      cases h₁

theorem planArguments_eq_ok {number : Nat} {step : TransactionStep} {c : Compiled}
    {vars args args' : List Variable} {bs : List Binding} {sources : List ArgumentSource}
    (h : planArguments number step c vars args bs = .ok (sources, args')) :
    ∀ name, .var name ∈ sources → name ∈ vars.map (·.name) := by
  induction bs generalizing args sources with
  | nil =>
    cases h
    simp
  | cons b rest ih =>
    obtain ⟨⟨source, args₁⟩, hsource, h₁⟩ := bind_eq_ok_iff.1 h
    obtain ⟨⟨sources', args₂⟩, hsources, h₂⟩ := bind_eq_ok_iff.1 h₁
    cases h₂
    intro name member
    rcases List.mem_cons.1 member with rfl | member
    · exact planArgument_eq_ok hsource
    · exact ih hsources name member

/-! ## Exports -/

/-- The export of a step fits the way its action runs: a column lies within the
    shape of a row that is fetched alone, a generated key is that of an insert, and
    a row count that of another write. -/
def ExportSource.Fits (c : Compiled) : ExportSource → Prop
  | .column index =>
    c.kind.stepKind = .queryRow ∧ ∃ shape, c.shape = some shape ∧ index < shape.fields.length
  | .insertId => c.kind.stepKind = .insert
  | .rowsAffected => ∃ expectOne, c.kind.stepKind = .exec expectOne

/-- A field is found within the shape. -/
theorem Shape.field?_eq_some {shape : Shape} {name : String} {i : Nat} {f : Field}
    (h : shape.field? name = some (i, f)) : shape.fields[i]? = some f := by
  obtain ⟨j, -, h₁⟩ := Option.bind_eq_some_iff.1 h
  obtain ⟨f', hf, h₂⟩ := Option.map_eq_some_iff.1 h₁
  cases h₂
  exact hf

theorem Compiled.fits_of_exportSource? {c : Compiled} {output : StepOutput} {source : ExportSource}
    {type : ColumnType} (h : c.exportSource? output = some (source, type)) : source.Fits c := by
  cases output with
  | field name =>
    rw [Compiled.exportSource?] at h
    split at h
    · next shape hkind hshape =>
      obtain ⟨⟨i, f⟩, hfield, h₁⟩ := Option.map_eq_some_iff.1 h
      cases h₁
      refine ⟨hkind, shape, hshape, ?_⟩
      exact (List.getElem?_eq_some_iff.1 (Shape.field?_eq_some hfield)).1
    · cases h
  | insertId =>
    rw [Compiled.exportSource?] at h
    split at h
    · next hkind =>
      cases h
      exact hkind
    · cases h
  | rowsAffected =>
    rw [Compiled.exportSource?] at h
    split at h
    · next hkind =>
      cases h
      exact ⟨_, hkind⟩
    · cases h

theorem StepExport.plan_eq_ok {number : Nat} {c : Compiled} {e : StepExport}
    {planned : PlannedExport}
    (h : e.plan number c = .ok planned) :
    c.exportSource? e.output = some (planned.source, planned.type) ∧ planned.var = e.var := by
  rw [StepExport.plan] at h
  split at h
  · next found =>
    cases h
    exact ⟨found, rfl⟩
  · cases h

/-! ## Steps -/

/-- A step that passed its checks, as the action `c`, where the variables `vars`
    are exported before it. -/
structure PlannedStep.Checked (c : Compiled) (vars : List Variable) (step : PlannedStep) :
    Prop where
  sql : step.sql = c.sql
  kind : step.kind = c.kind.stepKind
  args : ∀ name, .var name ∈ step.args → name ∈ vars.map (·.name)
  exports : ∀ e ∈ step.exports, e.source.Fits c

/-- The variables that are exported after a step. -/
def PlannedStep.varsAfter (vars : List Variable) (step : PlannedStep) : List Variable :=
  step.exports.foldl exportVariable vars

/-- Steps of a transaction that passed their checks one after the other, from the
    variables `vars` on. -/
inductive Planned (o : Options) :
    List Variable → List TransactionStep → List PlannedStep → List Variable → Prop
  | nil {vars : List Variable} : Planned o vars [] [] vars
  | cons {vars vars' : List Variable} {step : TransactionStep} {c : Compiled}
      {planned : PlannedStep} {steps : List TransactionStep} {plannedSteps : List PlannedStep}
      (compiled : step.action.compile o = .ok c)
      (checked : planned.Checked c vars)
      (rest : Planned o (planned.varsAfter vars) steps plannedSteps vars') :
      Planned o vars (step :: steps) (planned :: plannedSteps) vars'

theorem TransactionStep.plan_eq_ok {o : Options} {number : Nat} {state state' : PlanState}
    {step : TransactionStep} {planned : PlannedStep}
    (h : step.plan o number state = .ok (planned, state')) :
    ∃ c, step.action.compile o = .ok c ∧ planned.Checked c state.vars ∧
      state'.vars = planned.varsAfter state.vars := by
  obtain ⟨c, compiled, h₁⟩ := bind_eq_ok_iff.1 h
  refine ⟨c, compiled, ?_⟩
  cases known : unknownArgument? number step c with
  | some fault =>
    rw [known] at h₁
    cases h₁
  | none =>
    rw [known] at h₁
    obtain ⟨⟨sources, args⟩, hsources, h₂⟩ := bind_eq_ok_iff.1 h₁
    obtain ⟨exports, hexports, h₃⟩ := bind_eq_ok_iff.1 h₂
    cases h₃
    refine ⟨⟨rfl, rfl, planArguments_eq_ok hsources, ?_⟩, rfl⟩
    intro e he
    obtain ⟨e', -, hplan⟩ := exists_of_mem_mapM hexports he
    exact Compiled.fits_of_exportSource? (StepExport.plan_eq_ok hplan).1

theorem planSteps_eq_ok {o : Options} {number : Nat} {state state' : PlanState}
    {steps : List TransactionStep} {planned : List PlannedStep}
    (h : planSteps o number state steps = .ok (planned, state')) :
    Planned o state.vars steps planned state'.vars := by
  induction steps generalizing number state planned with
  | nil =>
    cases h
    exact .nil
  | cons step rest ih =>
    obtain ⟨⟨first, state₁⟩, hfirst, h₁⟩ := bind_eq_ok_iff.1 h
    obtain ⟨⟨others, state₂⟩, hothers, h₂⟩ := bind_eq_ok_iff.1 h₁
    cases h₂
    obtain ⟨c, compiled, checked, vars_eq⟩ := TransactionStep.plan_eq_ok hfirst
    have rest_planned := ih hothers
    rw [vars_eq] at rest_planned
    exact .cons compiled checked rest_planned

theorem findReturn_eq_ok {vars : List Variable} {name : String} {v : Variable}
    (h : findReturn vars name = .ok v) : v ∈ vars ∧ v.name = name := by
  rw [findReturn] at h
  split at h
  · next found =>
    cases h
    exact ⟨List.mem_of_find?_eq_some found, by simpa using List.find?_some found⟩
  · cases h

theorem returns_eq_ok {vars returns : List Variable} {names : List String}
    (h : names.mapM (findReturn vars) = .ok returns) :
    (∀ r ∈ returns, r ∈ vars) ∧ returns.map (·.name) = names := by
  have each := mapM_eq_ok_iff.1 h
  clear h
  induction each with
  | nil => simp
  | cons found _ ih =>
    obtain ⟨member, name_eq⟩ := findReturn_eq_ok found
    rw [List.forall_mem_cons, List.map_cons, name_eq, ih.2]
    exact ⟨⟨member, ih.1⟩, rfl⟩

/-- A plan consists of checked steps, and returns variables that these export. -/
theorem Transaction.plan_eq_ok {o : Options} {t : Transaction} {p : Plan}
    (h : t.plan o = .ok p) :
    ∃ vars, Planned o [] t.steps p.steps vars ∧ (∀ r ∈ p.returns, r ∈ vars) ∧
      p.returns.map (·.name) = t.returns := by
  obtain ⟨⟨steps, state⟩, hsteps, h₁⟩ := bind_eq_ok_iff.1 h
  obtain ⟨returns, hreturns, h₂⟩ := bind_eq_ok_iff.1 h₁
  cases h₂
  exact ⟨state.vars, planSteps_eq_ok hsteps, returns_eq_ok hreturns⟩

end Bindery
