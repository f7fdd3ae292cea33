import Bindery.Proofs.Statement.Acceptance
import Bindery.Proofs.Transaction.Planned

/-!
# The arguments of a plan

Each placeholder of a step has one source: the value a wrapper fixes, or what the
step binds to the parameter, or the argument of its name. The sources that are
arguments of the transaction are its uses. The plan lists the arguments by their
first uses, and it exists only if the uses of one name have one type.

* `argumentsOf`: the arguments for a list of uses.
* `TransactionStep.placeholderSource`, `TransactionStep.uses`: the source of a
  placeholder, and the uses among several.
* `useArgument_eq_ok_iff`, `planArguments_eq_ok_iff`: what one more use and what a
  step adds to the arguments.
* `TransactionStep.plan_eq`: the plan of a step by that of its compiled action.
-/

namespace Bindery

/-! ## Parameters of one name -/

theorem distinctBindings_cons (b : Binding) (rest : List Binding) :
    distinctBindings (b :: rest) = b :: (distinctBindings rest).filter (·.name != b.name) := rfl

theorem find?_distinctBindings (bs : List Binding) (name : String) :
    (distinctBindings bs).find? (·.name == name) = bs.find? (·.name == name) := by
  induction bs with
  | nil => rfl
  | cons b rest ih =>
    rw [distinctBindings_cons, List.find?_cons, List.find?_cons, List.find?_filter, ← ih]
    by_cases here : b.name = name
    · simp [here]
    · have other : (b.name == name) = false := beq_eq_false_iff_ne.2 here
      rw [other]
      -- What has the name sought is not dropped with the name of the first.
      refine congrArg (List.find? · (distinctBindings rest)) (funext fun x => ?_)
      by_cases found : x.name = name
      · simp [found, Ne.symm here]
      · simp [found]

theorem distinctBindings_concat (bs : List Binding) (b : Binding) :
    distinctBindings (bs ++ [b]) =
      distinctBindings bs ++ if b.name ∈ bs.map (·.name) then [] else [b] := by
  induction bs with
  | nil => rfl
  | cons first rest ih =>
    rw [List.cons_append, distinctBindings_cons, distinctBindings_cons, ih, List.filter_append,
      List.cons_append]
    congr 2
    by_cases same : b.name = first.name
    · simp only [List.map_cons, List.mem_cons, same, true_or, if_true]
      split <;> simp [same]
    · simp only [List.map_cons, List.mem_cons, same, false_or]
      split <;> simp [same]

/-- Names may be dropped before or after the repetitions. -/
theorem filter_distinctBindings (keep : String → Bool) (bs : List Binding) :
    (distinctBindings bs).filter (fun b => keep b.name) =
      distinctBindings (bs.filter fun b => keep b.name) := by
  induction bs with
  | nil => rfl
  | cons b rest ih =>
    rw [distinctBindings_cons, List.filter_cons, List.filter_cons, List.filter_filter]
    by_cases kept : keep b.name = true
    · rw [if_pos kept, if_pos kept, distinctBindings_cons, ← ih, List.filter_filter]
      simp only [Bool.and_comm]
    · rw [if_neg kept, if_neg kept, ← ih]
      refine List.filter_congr fun x _ => ?_
      by_cases same : x.name = b.name
      · simp [same, kept]
      · simp [same]

/-! ## Uses of arguments -/

/-- The arguments for uses: each name once, in the order of the first uses. -/
def argumentsOf (uses : List Binding) : List Variable :=
  (distinctBindings uses).map fun b => ⟨b.name, b.type⟩

theorem find?_argumentsOf (uses : List Binding) (name : String) :
    (argumentsOf uses).find? (·.name == name) =
      (uses.find? (·.name == name)).map fun b => ⟨b.name, b.type⟩ := by
  unfold argumentsOf
  rw [List.find?_map, ← find?_distinctBindings]
  rfl

theorem argumentsOf_concat (uses : List Binding) (b : Binding) :
    argumentsOf (uses ++ [b]) =
      argumentsOf uses ++ if b.name ∈ uses.map (·.name) then [] else [⟨b.name, b.type⟩] := by
  unfold argumentsOf
  rw [distinctBindings_concat, List.map_append]
  split <;> rfl

/-- One more use is accepted if it agrees with those before. -/
theorem useArgument_eq_ok_iff {uses : List Binding} (agree : Agree uses) {b : Binding}
    {args : List Variable} :
    useArgument (argumentsOf uses) b.name b.type = .ok args ↔
      Agree (uses ++ [b]) ∧ args = argumentsOf (uses ++ [b]) := by
  rw [← Binding.conflicts_eq_false_iff agree, argumentsOf_concat]
  unfold useArgument Binding.conflicts
  rw [find?_argumentsOf]
  cases found : uses.find? (·.name == b.name) with
  | none =>
    have new : b.name ∉ uses.map (·.name) := find?_name_eq_none_iff.1 found
    simp [new, eq_comm]
  | some first =>
    have known : b.name ∈ uses.map (·.name) := List.mem_map.2 ⟨first, of_find?_name_eq_some found⟩
    by_cases type_eq : first.type = b.type
    · simp [known, type_eq, eq_comm]
    · simp [type_eq]

/-! ## Sources of placeholders -/

/-- The source of a placeholder: the value that a wrapper fixes, or else what the
    step has for the parameter. -/
def TransactionStep.placeholderSource (step : TransactionStep) (c : Compiled) (b : Binding) :
    ArgumentSource :=
  match c.fixedValue? b.name with
  | some value => .literal value
  | none => step.source b.name

/-- The argument of the transaction that a source is. -/
def ArgumentSource.caller? : ArgumentSource → Option String
  | .caller name => some name
  | .var _ | .literal _ => none

/-- The uses of arguments among placeholders, each with the type of its
    placeholder. -/
def TransactionStep.uses (step : TransactionStep) (c : Compiled) (bs : List Binding) :
    List Binding :=
  bs.filterMap fun b => (step.placeholderSource c b).caller?.map fun name => { b with name }

theorem TransactionStep.uses_cons (step : TransactionStep) (c : Compiled) (b : Binding)
    (rest : List Binding) : step.uses c (b :: rest) = step.uses c [b] ++ step.uses c rest := by
  unfold uses
  rw [← List.filterMap_append]
  rfl

theorem TransactionStep.uses_singleton (step : TransactionStep) (c : Compiled) (b : Binding) :
    step.uses c [b] =
      match step.placeholderSource c b with
      | .caller name => [{ b with name }]
      | .var _ | .literal _ => [] := by
  unfold uses
  rw [List.filterMap_cons, List.filterMap_nil]
  cases step.placeholderSource c b <;> rfl

/-- The plan of a placeholder by its source. -/
theorem planArgument_eq (number : Nat) (step : TransactionStep) (c : Compiled)
    (vars args : List Variable) (b : Binding) :
    planArgument number step c vars args b =
      match step.placeholderSource c b with
      | .literal value => .ok (.literal value, args)
      | .var var =>
        if var ∈ vars.map (·.name) then .ok (.var var, args)
        else .error (.unboundVariable number var)
      | .caller name => (useArgument args name b.type).map (.caller name, ·) := by
  unfold planArgument TransactionStep.placeholderSource
  cases c.fixedValue? b.name with
  | some value => rfl
  | none =>
    cases step.source b.name with
    | literal value => rfl
    | caller name => rfl
    | var var =>
      refine if_congr ?_ rfl rfl
      simp only [List.any_eq_true, beq_iff_eq, List.mem_map]

theorem planArgument_eq_ok_iff {number : Nat} {step : TransactionStep} {c : Compiled}
    {vars args : List Variable} {uses : List Binding} (agree : Agree uses) {b : Binding}
    {source : ArgumentSource} :
    planArgument number step c vars (argumentsOf uses) b = .ok (source, args) ↔
      source = step.placeholderSource c b ∧
        (∀ name, source = .var name → name ∈ vars.map (·.name)) ∧
        Agree (uses ++ step.uses c [b]) ∧ args = argumentsOf (uses ++ step.uses c [b]) := by
  rw [planArgument_eq, TransactionStep.uses_singleton]
  cases step.placeholderSource c b with
  | literal value =>
    dsimp only
    rw [List.append_nil]
    constructor
    · rintro ⟨⟩
      exact ⟨rfl, by simp, agree, rfl⟩
    · rintro ⟨rfl, -, -, rfl⟩
      rfl
  | var var =>
    dsimp only
    rw [List.append_nil]
    by_cases known : var ∈ vars.map (·.name)
    · rw [if_pos known]
      constructor
      · rintro ⟨⟩
        exact ⟨rfl, fun name same => ArgumentSource.var.inj same ▸ known, agree, rfl⟩
      · rintro ⟨rfl, -, -, rfl⟩
        rfl
    · rw [if_neg known]
      refine iff_of_false (by simp) ?_
      rintro ⟨rfl, all_known, -⟩
      exact known (all_known var rfl)
  | caller name =>
    have one_more : useArgument (argumentsOf uses) name b.type = .ok args ↔ _ :=
      useArgument_eq_ok_iff (b := { b with name }) agree
    constructor
    · intro h
      obtain ⟨args', used, same⟩ := map_eq_ok_iff.1 h
      cases same
      obtain ⟨agrees, args_eq⟩ := one_more.1 used
      exact ⟨rfl, by simp, agrees, args_eq⟩
    · rintro ⟨rfl, -, agrees, args_eq⟩
      exact map_eq_ok_iff.2 ⟨args, one_more.2 ⟨agrees, args_eq⟩, rfl⟩

/-- A step is accepted if the variables it reads are known and its uses agree with
    those before; it adds these to the arguments. -/
theorem planArguments_eq_ok_iff {number : Nat} {step : TransactionStep} {c : Compiled}
    {vars args : List Variable} {uses : List Binding} (agree : Agree uses) {bs : List Binding}
    {sources : List ArgumentSource} :
    planArguments number step c vars (argumentsOf uses) bs = .ok (sources, args) ↔
      sources = bs.map (step.placeholderSource c) ∧
        (∀ name, .var name ∈ sources → name ∈ vars.map (·.name)) ∧
        Agree (uses ++ step.uses c bs) ∧ args = argumentsOf (uses ++ step.uses c bs) := by
  induction bs generalizing uses sources with
  | nil =>
    have none : uses ++ step.uses c [] = uses := List.append_nil uses
    rw [none]
    constructor
    · rintro ⟨⟩
      simp [agree]
    · rintro ⟨rfl, -, -, rfl⟩
      rfl
  | cons b rest ih =>
    rw [TransactionStep.uses_cons, ← List.append_assoc]
    constructor
    · intro h
      obtain ⟨⟨source, args₁⟩, first, h₁⟩ := bind_eq_ok_iff.1 h
      obtain ⟨⟨sources', args₂⟩, others, h₂⟩ := bind_eq_ok_iff.1 h₁
      cases h₂
      obtain ⟨rfl, known, agree₁, rfl⟩ := (planArgument_eq_ok_iff agree).1 first
      obtain ⟨rfl, known', agree₂, rfl⟩ := (ih agree₁).1 others
      refine ⟨rfl, ?_, agree₂, rfl⟩
      intro name member
      rcases List.mem_cons.1 member with here | later
      · exact known name here.symm
      · exact known' name later
    · rintro ⟨rfl, known, agree₂, rfl⟩
      have agree₁ := agree₂.of_subset (List.subset_append_left _ _)
      have first : planArgument number step c vars (argumentsOf uses) b = .ok (_, _) :=
        (planArgument_eq_ok_iff agree).2
          ⟨rfl, fun name here => known name (here ▸ List.mem_cons_self), agree₁, rfl⟩
      have others := (ih agree₁).2
        ⟨rfl, fun name later => known name (List.mem_cons_of_mem _ later), agree₂, rfl⟩
      exact bind_eq_ok_iff.2 ⟨_, first, bind_eq_ok_iff.2 ⟨_, others, rfl⟩⟩

/-! ## Steps -/

/-- The plan of a step whose action is compiled, and what is known after it. -/
def TransactionStep.planCompiled (number : Nat) (state : PlanState) (step : TransactionStep)
    (c : Compiled) : Except Fault (PlannedStep × PlanState) :=
  match unknownArgument? number step c with
  | some fault => .error fault
  | none => do
    let (sources, args) ← planArguments number step c state.vars state.args c.params
    let exports ← step.exports.mapM (StepExport.plan number c)
    return (⟨c.name, c.sql, c.kind.stepKind, sources, exports⟩,
      ⟨args, exports.foldl exportVariable state.vars⟩)

theorem TransactionStep.plan_eq (o : Options) (number : Nat) (state : PlanState)
    (step : TransactionStep) :
    step.plan o number state = step.action.compile o >>= step.planCompiled number state := by
  unfold plan
  refine bind_congr fun c => ?_
  unfold planCompiled
  cases unknownArgument? number step c with
  | some fault => rfl
  | none => rfl

end Bindery
