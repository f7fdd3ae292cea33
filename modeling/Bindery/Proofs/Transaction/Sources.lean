import Bindery.Proofs.Action.Wrapper
import Bindery.Proofs.Transaction.Arguments
import Bindery.Proofs.Transaction.Simulation

/-!
# The sources of a plan

Where the values of a planned step come from, said by what the definition holds and
not by how it is searched. If no step binds a parameter twice, each placeholder has
one source. If a step does bind one twice, only its first binding is ever looked at.

* `TransactionStep.Supplies`: the sources that a definition has for a parameter.
* `TransactionStep.Resolves`, `Resolved`: a step and the steps of a transaction with
  the sources that planning gives them.
* `Transaction.plan_supplies`: the steps, sources and arguments of a plan.
* `PlannedStep.Heeds`: a binding that takes effect.
* `Transaction.heeds_all_iff`: all bindings take effect if and only if no step binds
  a parameter to two sources.
-/

namespace Bindery

/-! ## What a definition supplies -/

/-- The sources that a step has for a parameter: the value that a wrapper fixes;
    else what the step binds to it; else the argument of its name. -/
inductive TransactionStep.Supplies (step : TransactionStep) (c : Compiled) (param : String) :
    ArgumentSource → Prop
  | fixed {value : Value} (member : (param, value) ∈ c.fixed) :
      Supplies step c param (.literal value)
  | bound {source : ArgumentSource} (free : param ∉ c.fixed.map (·.1))
      (member : (param, source) ∈ step.args) : Supplies step c param source
  | unbound (free : param ∉ c.fixed.map (·.1)) (absent : param ∉ step.args.map (·.1)) :
      Supplies step c param (.caller param)

theorem lookup_eq_some_iff_mem {α : Type} {xs : List (String × α)} (distinct : (xs.map (·.1)).Nodup)
    {name : String} {a : α} : xs.lookup name = some a ↔ (name, a) ∈ xs := by
  induction xs with
  | nil => simp
  | cons x xs ih =>
    obtain ⟨other, b⟩ := x
    rw [List.map_cons, List.nodup_cons] at distinct
    rw [lookup_cons_eq_ite, List.mem_cons]
    by_cases here : name = other
    · subst here
      have absent : (name, a) ∉ xs := fun member =>
        distinct.1 (List.mem_map_of_mem (f := (·.1)) member)
      simp [absent, eq_comm]
    · simp [here, ih distinct.2]

/-- If nothing is fixed or bound twice, a parameter has one source, the one that the
    planner finds. -/
theorem TransactionStep.supplies_iff {step : TransactionStep} {c : Compiled}
    (fixed_once : (c.fixed.map (·.1)).Nodup) (bound_once : (step.args.map (·.1)).Nodup)
    {b : Binding} {source : ArgumentSource} :
    step.Supplies c b.name source ↔ source = step.placeholderSource c b := by
  unfold placeholderSource
  cases fixed : c.fixedValue? b.name with
  | some value =>
    have member : (b.name, value) ∈ c.fixed := (lookup_eq_some_iff_mem fixed_once).1 fixed
    have taken : b.name ∈ c.fixed.map (·.1) := List.mem_map_of_mem member
    constructor
    · rintro (⟨member'⟩ | ⟨free, -⟩ | ⟨free, -⟩)
      · rw [← lookup_eq_some_iff_mem fixed_once] at member'
        exact congrArg _ (Option.some.inj (member'.symm.trans fixed))
      · exact absurd taken free
      · exact absurd taken free
    · rintro rfl
      exact .fixed member
  | none =>
    have free : b.name ∉ c.fixed.map (·.1) := lookup_eq_none_iff_not_mem.1 fixed
    unfold TransactionStep.source
    cases bound : step.args.lookup b.name with
    | some first =>
      have member : (b.name, first) ∈ step.args := (lookup_eq_some_iff_mem bound_once).1 bound
      constructor
      · rintro (⟨taken⟩ | ⟨-, member'⟩ | ⟨-, absent⟩)
        · exact absurd (List.mem_map_of_mem taken) free
        · rw [← lookup_eq_some_iff_mem bound_once] at member'
          exact Option.some.inj (member'.symm.trans bound)
        · exact absurd (List.mem_map_of_mem member) absent
      · rintro rfl
        exact .bound free member
    | none =>
      have absent : b.name ∉ step.args.map (·.1) := lookup_eq_none_iff_not_mem.1 bound
      constructor
      · rintro (⟨taken⟩ | ⟨-, member⟩ | ⟨-, -⟩)
        · exact absurd (List.mem_map_of_mem taken) free
        · exact absurd (List.mem_map_of_mem member) absent
        · rfl
      · rintro rfl
        exact .unbound free absent

/-! ## Steps with their sources -/

/-- A step as planned by its compiled action `c`, where the variables `vars` are
    exported before it. -/
structure TransactionStep.Resolves (o : Options) (step : TransactionStep) (c : Compiled)
    (vars : List Variable) (planned : PlannedStep) : Prop where
  compiled : step.action.compile o = .ok c
  /-- Every binding is for a parameter that no wrapper fixes. -/
  known : ∀ arg ∈ step.args, arg.1 ∈ c.arguments.map (·.name)
  action : planned.action = c.name
  sql : planned.sql = c.sql
  args : planned.args = c.params.map (step.placeholderSource c)
  vars : ∀ name, .var name ∈ planned.args → name ∈ vars.map (·.name)
  exports : planned.exports.map (·.var) = step.exports.map (·.var)

theorem unknownArgument?_eq_none_iff {number : Nat} {step : TransactionStep} {c : Compiled} :
    unknownArgument? number step c = none ↔
      ∀ arg ∈ step.args, arg.1 ∈ c.arguments.map (·.name) := by
  simp [unknownArgument?, List.find?_eq_none]

theorem exports_of_mapM {number : Nat} {c : Compiled} {exports : List StepExport}
    {planned : List PlannedExport} (h : exports.mapM (StepExport.plan number c) = .ok planned) :
    planned.map (·.var) = exports.map (·.var) := by
  induction mapM_eq_ok_iff.1 h with
  | nil => rfl
  | cons first rest ih =>
    rw [List.map_cons, List.map_cons, (StepExport.plan_eq_ok first).2, ih (mapM_eq_ok_iff.2 rest)]

/-- A planned step adds its uses to those before, with which they agree. -/
theorem TransactionStep.resolves_of_plan {o : Options} {number : Nat} {uses : List Binding}
    {vars : List Variable} {state : PlanState} {step : TransactionStep} {planned : PlannedStep}
    (agree : Agree uses) (h : step.plan o number ⟨argumentsOf uses, vars⟩ = .ok (planned, state)) :
    ∃ c, step.Resolves o c vars planned ∧ Agree (uses ++ step.uses c c.params) ∧
      state = ⟨argumentsOf (uses ++ step.uses c c.params), planned.varsAfter vars⟩ := by
  rw [plan_eq] at h
  obtain ⟨c, compiled, h₁⟩ := bind_eq_ok_iff.1 h
  unfold planCompiled at h₁
  cases known : unknownArgument? number step c with
  | some fault =>
    rw [known] at h₁
    cases h₁
  | none =>
    rw [known] at h₁
    obtain ⟨⟨sources, args⟩, hsources, h₂⟩ := bind_eq_ok_iff.1 h₁
    obtain ⟨exports, hexports, h₃⟩ := bind_eq_ok_iff.1 h₂
    cases h₃
    obtain ⟨rfl, exported, agree', rfl⟩ := (planArguments_eq_ok_iff agree).1 hsources
    refine ⟨c, ⟨compiled, unknownArgument?_eq_none_iff.1 known, rfl, rfl, rfl, exported, ?_⟩,
      agree', rfl⟩
    exact exports_of_mapM hexports

/-- Steps as they are planned one after the other, from the uses and variables
    before them to the uses after them. -/
inductive Resolved (o : Options) : List Binding → List Variable → List TransactionStep →
    List PlannedStep → List Binding → Prop
  | nil {uses : List Binding} {vars : List Variable} (agree : Agree uses) :
      Resolved o uses vars [] [] uses
  | cons {uses uses' : List Binding} {vars : List Variable} {step : TransactionStep} {c : Compiled}
      {planned : PlannedStep} {steps : List TransactionStep} {plannedSteps : List PlannedStep}
      (first : step.Resolves o c vars planned)
      (rest : Resolved o (uses ++ step.uses c c.params) (planned.varsAfter vars) steps plannedSteps
        uses') :
      Resolved o uses vars (step :: steps) (planned :: plannedSteps) uses'

theorem resolved_of_planSteps {o : Options} {number : Nat} {uses : List Binding}
    {vars : List Variable} {state : PlanState} {steps : List TransactionStep}
    {planned : List PlannedStep} (agree : Agree uses)
    (h : planSteps o number ⟨argumentsOf uses, vars⟩ steps = .ok (planned, state)) :
    ∃ uses', Resolved o uses vars steps planned uses' ∧ state.args = argumentsOf uses' := by
  induction steps generalizing number uses vars planned with
  | nil =>
    cases h
    exact ⟨uses, .nil agree, rfl⟩
  | cons step rest ih =>
    obtain ⟨⟨first, state₁⟩, hfirst, h₁⟩ := bind_eq_ok_iff.1 h
    obtain ⟨⟨others, state₂⟩, hothers, h₂⟩ := bind_eq_ok_iff.1 h₁
    cases h₂
    obtain ⟨c, resolves, agree', rfl⟩ := TransactionStep.resolves_of_plan agree hfirst
    obtain ⟨uses', resolved, args_eq⟩ := ih agree' hothers
    exact ⟨uses', .cons resolves resolved, args_eq⟩

theorem Transaction.resolved_of_plan {o : Options} {t : Transaction} {p : Plan}
    (h : t.plan o = .ok p) :
    ∃ uses, Resolved o [] [] t.steps p.steps uses ∧ p.args = argumentsOf uses := by
  obtain ⟨⟨steps, state⟩, hsteps, h₁⟩ := bind_eq_ok_iff.1 h
  obtain ⟨returns, -, h₂⟩ := bind_eq_ok_iff.1 h₁
  cases h₂
  have none : Agree [] := by simp [Agree]
  exact resolved_of_planSteps none hsteps

namespace Resolved

variable {o : Options} {uses uses' : List Binding} {vars : List Variable}
  {steps : List TransactionStep} {planned : List PlannedStep}

theorem length_eq (h : Resolved o uses vars steps planned uses') :
    planned.length = steps.length := by
  induction h with
  | nil _ => rfl
  | cons _ _ ih => rw [List.length_cons, List.length_cons, ih]

theorem agree (h : Resolved o uses vars steps planned uses') : Agree uses' := by
  induction h with
  | nil agree => exact agree
  | cons _ _ ih => exact ih

theorem subset (h : Resolved o uses vars steps planned uses') : uses ⊆ uses' := by
  induction h with
  | nil _ => exact List.Subset.refl _
  | cons _ _ ih => exact fun b member => ih (List.mem_append_left _ member)

end Resolved

/-- A variable is exported by one of the steps before the given place. -/
def ExportedBefore (steps : List TransactionStep) (place : Nat) (name : String) : Prop :=
  ∃ step ∈ steps.take place, name ∈ step.exports.map (·.var)

/-- The step at a place was planned among the variables of the steps before it, and
    its uses are among those of the whole. -/
theorem Resolved.at_place {o : Options} {uses uses' : List Binding} {vars : List Variable}
    {steps : List TransactionStep} {planned : List PlannedStep}
    (h : Resolved o uses vars steps planned uses') {i : Nat} {step : TransactionStep}
    {p : PlannedStep} (hstep : steps[i]? = some step) (hp : planned[i]? = some p) :
    ∃ c table, step.Resolves o c table p ∧ step.uses c c.params ⊆ uses' ∧
      ∀ name ∈ table.map (·.name), name ∈ vars.map (·.name) ∨ ExportedBefore steps i name := by
  induction h generalizing i with
  | nil _ => simp at hstep
  | @cons _ _ vars first c firstPlanned _ _ resolves rest ih =>
    cases i with
    | zero =>
      cases hstep
      cases hp
      refine ⟨c, vars, resolves, ?_, fun name member => .inl member⟩
      exact fun b member => rest.subset (List.mem_append_right _ member)
    | succ i =>
      obtain ⟨c', table, resolves', within, known⟩ := ih hstep hp
      refine ⟨c', table, resolves', within, fun name member => ?_⟩
      rcases known name member with before | ⟨earlier, among, exported⟩
      · rw [PlannedStep.names_varsAfter, mem_foldl_exportName, resolves.exports] at before
        rcases before with before | exported
        · exact .inl before
        · exact .inr ⟨first, List.mem_cons_self, exported⟩
      · exact .inr ⟨earlier, List.mem_cons_of_mem _ among, exported⟩

/-! ## Arguments -/

/-- The arguments of the transaction that a planned step uses, by placeholder. -/
def PlannedStep.callers (planned : PlannedStep) : List String :=
  planned.args.filterMap ArgumentSource.caller?

theorem TransactionStep.names_uses (step : TransactionStep) (c : Compiled) (bs : List Binding) :
    (step.uses c bs).map (·.name) =
      (bs.map (step.placeholderSource c)).filterMap ArgumentSource.caller? := by
  unfold uses
  rw [List.map_filterMap, List.filterMap_map]
  congr 1
  funext b
  show Option.map _ (Option.map _ _) = _
  rw [Option.map_map]
  exact Option.map_id'

theorem Resolved.names_eq {o : Options} {uses uses' : List Binding} {vars : List Variable}
    {steps : List TransactionStep} {planned : List PlannedStep}
    (h : Resolved o uses vars steps planned uses') :
    uses'.map (·.name) = uses.map (·.name) ++ planned.flatMap PlannedStep.callers := by
  induction h with
  | nil _ => rw [List.flatMap_nil, List.append_nil]
  | cons first _ ih =>
    rw [ih, List.map_append, TransactionStep.names_uses, ← first.args, List.flatMap_cons,
      List.append_assoc]
    rfl

theorem names_distinctBindings (bs : List Binding) :
    (distinctBindings bs).map (·.name) = (bs.map (·.name)).eraseDups := by
  induction length_eq : bs.length using Nat.strongRecOn generalizing bs with
  | ind n ih =>
    cases bs with
    | nil => rfl
    | cons b rest =>
      have shorter : (rest.filter (·.name != b.name)).length < n := by
        have := List.length_filter_le (·.name != b.name) rest
        rw [← length_eq, List.length_cons]
        omega
      rw [distinctBindings_cons, filter_distinctBindings (· != b.name), List.map_cons,
        List.map_cons, List.eraseDups_cons, ih _ shorter _ rfl, List.filter_map]
      rfl

theorem names_argumentsOf (uses : List Binding) :
    (argumentsOf uses).map (·.name) = (uses.map (·.name)).eraseDups := by
  unfold argumentsOf
  rw [List.map_map, ← names_distinctBindings]
  rfl

/-- The type of an argument is that of each of its uses. -/
theorem mem_argumentsOf {uses : List Binding} (agree : Agree uses) {b : Binding}
    (member : b ∈ uses) : ⟨b.name, b.type⟩ ∈ argumentsOf uses := by
  have found : ∃ first, uses.find? (·.name == b.name) = some first :=
    Option.isSome_iff_exists.1 (List.find?_isSome.2 ⟨b, member, by simp⟩)
  obtain ⟨first, found⟩ := found
  obtain ⟨among, name_eq⟩ := of_find?_name_eq_some found
  have listed : (argumentsOf uses).find? (·.name == b.name) = some ⟨first.name, first.type⟩ := by
    rw [find?_argumentsOf, found]
    rfl
  rw [← name_eq, ← agree first among b member name_eq]
  exact List.mem_of_find?_eq_some listed

theorem Action.name_compile {o : Options} {a : Action} {c : Compiled} (h : a.compile o = .ok c) :
    c.name = a.name := by
  obtain ⟨b, -, -, -, rfl⟩ := compile_eq_ok_iff_core.1 h
  rfl

theorem Action.nodup_fixed_compile {o : Options} {a : Action} {c : Compiled}
    (h : a.compile o = .ok c) : (c.fixed.map (·.1)).Nodup := by
  obtain ⟨b, -, distinct, -, rfl⟩ := compile_eq_ok_iff_core.1 h
  exact distinct

/-- An argument has the type of every placeholder that it feeds. -/
theorem TransactionStep.Resolves.mem_arguments {o : Options} {step : TransactionStep} {c : Compiled}
    {vars : List Variable} {planned : PlannedStep} (h : step.Resolves o c vars planned)
    {uses : List Binding} (agree : Agree uses) (within : step.uses c c.params ⊆ uses) {k : Nat}
    {b : Binding} {name : String} (hb : c.params[k]? = some b)
    (fed : planned.args[k]? = some (.caller name)) : ⟨name, b.type⟩ ∈ argumentsOf uses := by
  rw [h.args, List.getElem?_map, hb, Option.map_some, Option.some_inj] at fed
  have used : { b with name } ∈ step.uses c c.params := by
    refine List.mem_filterMap.2 ⟨b, List.mem_of_getElem? hb, ?_⟩
    rw [fed]
    rfl
  exact mem_argumentsOf agree (within used)

/-- A plan has the steps of its transaction in their order. If no step binds a
    parameter twice, the placeholders of a step have one argument each, the only source
    that the definition supplies for the parameter, and a variable among them is
    exported by a step before. The plan lists the arguments of the transaction by their
    first uses, each with the type of all the placeholders that it feeds. -/
theorem Transaction.plan_supplies {o : Options} {t : Transaction} {p : Plan}
    (accepted : t.plan o = .ok p) (once : ∀ step ∈ t.steps, (step.args.map (·.1)).Nodup) :
    p.steps.length = t.steps.length ∧
    (∀ i step planned, t.steps[i]? = some step → p.steps[i]? = some planned →
      ∃ c, step.action.compile o = .ok c ∧ planned.action = step.action.name ∧
        planned.sql = c.sql ∧
        (∃ s : Statement, c.sql = s.sql o.dialect ∧ c.params = s.bindings) ∧
        (step.action.Avoids '?' → planned.sql.toList.count '?' = planned.args.length) ∧
        List.Forall₂ (fun b arg => ∀ source, step.Supplies c b.name source ↔ source = arg)
          c.params planned.args ∧
        (∀ name, .var name ∈ planned.args → ExportedBefore t.steps i name) ∧
        ∀ (k : Nat) (b : Binding) (name : String), c.params[k]? = some b →
          planned.args[k]? = some (.caller name) → ⟨name, b.type⟩ ∈ p.args) ∧
    p.args.map (·.name) = (p.steps.flatMap PlannedStep.callers).eraseDups := by
  obtain ⟨uses, resolved, args_eq⟩ := resolved_of_plan accepted
  refine ⟨resolved.length_eq, ?_, ?_⟩
  · intro i step planned hstep hplanned
    obtain ⟨c, table, resolves, within, known⟩ := resolved.at_place hstep hplanned
    obtain ⟨prepared, hprepared, rendered⟩ := Action.compile_eq_ok_iff.1 resolves.compiled
    have bound_once := once step (List.mem_of_getElem? hstep)
    have fixed_once := Action.nodup_fixed_compile resolves.compiled
    refine ⟨c, resolves.compiled, resolves.action.trans (Action.name_compile resolves.compiled),
      resolves.sql, ⟨prepared.statement, ?_, ?_⟩, ?_, ?_, ?_, ?_⟩
    · rw [← rendered]
      rfl
    · rw [← rendered]
      rfl
    · intro avoids
      rw [resolves.sql, resolves.args, List.length_map, ← rendered]
      exact count_question_piecesSql avoids (Action.from_prepare hprepared)
    · rw [resolves.args, List.forall₂_map_right_iff, List.forall₂_same]
      intro b _ source
      exact TransactionStep.supplies_iff fixed_once bound_once
    · intro name read
      rcases known name (resolves.vars name read) with absent | exported
      · cases absent
      · exact exported
    · intro k b name hb fed
      rw [args_eq]
      exact resolves.mem_arguments resolved.agree within hb fed
  · rw [args_eq, names_argumentsOf, resolved.names_eq]
    rfl

/-- No views for a post. -/
def resetViews : Action := .wrap "resetViews" posts setViews [("views", .int 0)]

/-- Moves the views of a post to another one. -/
def moveViews : Transaction where
  name := "moveViews"
  table := posts
  steps := [
    { action := viewsOfPost, args := [("id", .caller "from")], exports := [⟨.field "views", "n"⟩] },
    { action := resetViews, args := [("id", .caller "from")] },
    { action := setViews, args := [("views", .var "n")] }]

theorem moveViews_supplies :
    ∃ p, moveViews.plan {} = .ok p ∧ (∀ step ∈ moveViews.steps, (step.args.map (·.1)).Nodup) ∧
      p.steps.length = 3 ∧
      p.steps.map (·.args) = [[.caller "from"], [.literal (.int 0), .caller "from"],
        [.var "n", .caller "id"]] ∧
      ExportedBefore moveViews.steps 2 "n" ∧
      p.args.map (·.name) = ["from", "id"] := by
  have once : ∀ step ∈ moveViews.steps, (step.args.map (·.1)).Nodup := by decide
  have planned : ∃ p, moveViews.plan {} = .ok p ∧
      p.steps.map (·.args) = [[.caller "from"], [.literal (.int 0), .caller "from"],
        [.var "n", .caller "id"]] := ⟨_, rfl, rfl⟩
  obtain ⟨p, accepted, args⟩ := planned
  obtain ⟨length_eq, supplied, names⟩ := Transaction.plan_supplies accepted once
  have last : ∃ planned, p.steps[2]? = some planned ∧ planned.args = [.var "n", .caller "id"] := by
    have third := congrArg (·[2]?) args
    simpa using third
  obtain ⟨planned, hplanned, planned_args⟩ := last
  obtain ⟨c, -, -, -, -, -, -, exported, -⟩ := supplied 2 _ planned rfl hplanned
  refine ⟨p, accepted, once, length_eq, args, exported "n" (by simp [planned_args]), ?_⟩
  have callers : p.steps.flatMap PlannedStep.callers =
      (p.steps.map (·.args)).flatMap (List.filterMap ArgumentSource.caller?) := by
    rw [List.flatMap_map]
    rfl
  rw [names, callers, args]
  decide

/-! ## Bindings that take effect -/

/-- A binding takes effect in a planned step: the parameter has placeholders, and all
    of them have the source. -/
def PlannedStep.Heeds (c : Compiled) (param : String) (source : ArgumentSource)
    (planned : PlannedStep) : Prop :=
  (∃ b ∈ c.params, b.name = param) ∧
    ∀ (k : Nat) (b : Binding), c.params[k]? = some b → b.name = param →
      planned.args[k]? = some source

/-- A binding takes effect in the plan of the step at a place, where a variable is
    exported before. -/
def Transaction.TakesEffect (o : Options) (t : Transaction) (p : Plan) (place : Nat)
    (param : String) (source : ArgumentSource) : Prop :=
  ∃ step planned c, t.steps[place]? = some step ∧ p.steps[place]? = some planned ∧
    step.action.compile o = .ok c ∧ planned.Heeds c param source ∧
    ∀ var, source = .var var → ExportedBefore t.steps place var

theorem mem_of_mem_distinctBindings {bs : List Binding} {b : Binding}
    (h : b ∈ distinctBindings bs) : b ∈ bs := by
  induction bs with
  | nil => exact h
  | cons first rest ih =>
    rcases List.mem_cons.1 h with rfl | later
    · exact List.mem_cons_self
    · exact List.mem_cons_of_mem _ (ih (List.mem_filter.1 later).1)

/-- What a caller gives is behind a placeholder, and no wrapper fixes it. -/
theorem Compiled.exists_of_mem_arguments {c : Compiled} {param : String}
    (h : param ∈ c.arguments.map (·.name)) :
    c.fixedValue? param = none ∧ ∃ b ∈ c.params, b.name = param := by
  obtain ⟨b, member, rfl⟩ := List.mem_map.1 h
  obtain ⟨among, free⟩ := List.mem_filter.1 member
  exact ⟨Option.isNone_iff_eq_none.1 free, b, mem_of_mem_distinctBindings among, rfl⟩

/-- The bindings of a step that take effect are the first ones of their parameters. -/
theorem TransactionStep.Resolves.heeds_iff {o : Options} {step : TransactionStep} {c : Compiled}
    {vars : List Variable} {planned : PlannedStep} (h : step.Resolves o c vars planned)
    {param : String} {source : ArgumentSource} (member : (param, source) ∈ step.args) :
    planned.Heeds c param source ↔ step.args.lookup param = some source := by
  obtain ⟨free, b, hb, name_eq⟩ := Compiled.exists_of_mem_arguments (h.known _ member)
  have bound : ∃ first, step.args.lookup param = some first := by
    rw [← Option.isSome_iff_exists, Option.isSome_iff_ne_none, ne_eq, lookup_eq_none_iff_not_mem]
    exact fun absent => absent (List.mem_map_of_mem (f := (·.1)) member)
  obtain ⟨first, first_eq⟩ := bound
  have planned_from : ∀ (k : Nat) (b : Binding), c.params[k]? = some b → b.name = param →
      planned.args[k]? = some first := by
    rintro k b hb rfl
    rw [h.args, List.getElem?_map, hb, Option.map_some]
    unfold placeholderSource TransactionStep.source
    rw [free, first_eq]
    rfl
  constructor
  · rintro ⟨-, all_from⟩
    obtain ⟨k, hk⟩ := List.getElem?_of_mem hb
    rw [first_eq, ← planned_from k b hk name_eq]
    exact all_from k b hk name_eq
  · intro found
    obtain rfl : first = source := Option.some.inj (first_eq.symm.trans found)
    exact ⟨⟨b, hb, name_eq⟩, planned_from⟩

theorem Transaction.takesEffect_iff {o : Options} {t : Transaction} {p : Plan}
    (accepted : t.plan o = .ok p) {i : Nat} {step : TransactionStep}
    (hstep : t.steps[i]? = some step) {param : String} {source : ArgumentSource}
    (member : (param, source) ∈ step.args) :
    t.TakesEffect o p i param source ↔ step.args.lookup param = some source := by
  obtain ⟨uses, resolved, -⟩ := resolved_of_plan accepted
  have planned : ∃ planned, p.steps[i]? = some planned := by
    have within : i < p.steps.length := by
      rw [resolved.length_eq]
      exact (List.getElem?_eq_some_iff.1 hstep).1
    exact ⟨_, List.getElem?_eq_getElem within⟩
  obtain ⟨planned, hplanned⟩ := planned
  obtain ⟨c, table, resolves, -, known⟩ := resolved.at_place hstep hplanned
  rw [← resolves.heeds_iff member]
  constructor
  · rintro ⟨step', planned', c', hstep', hplanned', compiled, heeds, -⟩
    cases hstep.symm.trans hstep'
    cases hplanned.symm.trans hplanned'
    cases resolves.compiled.symm.trans compiled
    exact heeds
  · intro heeds
    refine ⟨step, planned, c, hstep, hplanned, resolves.compiled, heeds, ?_⟩
    rintro var rfl
    obtain ⟨⟨b, hb, name_eq⟩, all_from⟩ := heeds
    obtain ⟨k, hk⟩ := List.getElem?_of_mem hb
    have read : .var var ∈ planned.args := List.mem_of_getElem? (all_from k b hk name_eq)
    rcases known var (resolves.vars var read) with absent | exported
    · cases absent
    · exact exported

/-- In an accepted transaction a binding takes effect if and only if it is the first
    one of its parameter in the step, or has the source of the first. So all bindings
    take effect if and only if no step binds a parameter to two sources. -/
theorem Transaction.heeds_all_iff {o : Options} {t : Transaction} {p : Plan}
    (accepted : t.plan o = .ok p) :
    (∀ i step param source, t.steps[i]? = some step → (param, source) ∈ step.args →
      (t.TakesEffect o p i param source ↔ step.args.lookup param = some source)) ∧
    ((∀ i step param source, t.steps[i]? = some step → (param, source) ∈ step.args →
        t.TakesEffect o p i param source) ↔
      ∀ step ∈ t.steps, ∀ param source source', (param, source) ∈ step.args →
        (param, source') ∈ step.args → source = source') := by
  have effect_iff : ∀ i step param source, t.steps[i]? = some step → (param, source) ∈ step.args →
      (t.TakesEffect o p i param source ↔ step.args.lookup param = some source) :=
    fun i step param source hstep member => takesEffect_iff accepted hstep member
  refine ⟨effect_iff, ?_, ?_⟩
  · intro all_take step among param source source' member member'
    obtain ⟨i, hstep⟩ := List.getElem?_of_mem among
    have found := (effect_iff i step param source hstep member).1
      (all_take i step param source hstep member)
    have found' := (effect_iff i step param source' hstep member').1
      (all_take i step param source' hstep member')
    exact Option.some.inj (found.symm.trans found')
  · intro one_source i step param source hstep member
    rw [effect_iff i step param source hstep member]
    cases found : step.args.lookup param with
    | none =>
      exact absurd (List.mem_map_of_mem (f := (·.1)) member) (lookup_eq_none_iff_not_mem.1 found)
    | some first =>
      obtain ⟨before, behind, cut, -⟩ := List.lookup_eq_some_iff.1 found
      have first_member : (param, first) ∈ step.args := by simp [cut]
      rw [one_source step (List.mem_of_getElem? hstep) param first source first_member member]

/-- All bindings of a transaction that binds no parameter twice take effect. -/
theorem moveViews_heeded :
    ∃ p, moveViews.plan {} = .ok p ∧ ("views", .var "n") ∈ (moveViews.steps.flatMap (·.args)) ∧
      moveViews.TakesEffect {} p 2 "views" (.var "n") := by
  have planned : ∃ p, moveViews.plan {} = .ok p := ⟨_, rfl⟩
  obtain ⟨p, accepted⟩ := planned
  refine ⟨p, accepted, by decide, ?_⟩
  exact ((Transaction.heeds_all_iff accepted).1 2 _ "views" (.var "n") rfl (by decide)).2 rfl

/-- Binds the views of a post to two values. -/
def twoViews : Transaction where
  name := "twoViews"
  table := posts
  steps := [{ action := setViews
              args := [("views", .literal (.int 0)), ("views", .literal (.int 1))] }]

/-- A step that binds a parameter to two values is accepted, and the second has no
    effect. -/
theorem twoViews_ignored :
    ∃ p, twoViews.plan {} = .ok p ∧ p.steps.map (·.args) = [[.literal (.int 0), .caller "id"]] ∧
      ("views", .literal (.int 1)) ∈ twoViews.steps.flatMap (·.args) ∧
      ¬ twoViews.TakesEffect {} p 0 "views" (.literal (.int 1)) := by
  have planned : ∃ p, twoViews.plan {} = .ok p ∧
      p.steps.map (·.args) = [[.literal (.int 0), .caller "id"]] := ⟨_, rfl, rfl⟩
  obtain ⟨p, accepted, args⟩ := planned
  refine ⟨p, accepted, args, by decide, ?_⟩
  rw [Transaction.takesEffect_iff accepted rfl (by decide)]
  decide

end Bindery
