import Bindery.Proofs.Code.MethodText
import Bindery.Proofs.Transaction.Single
import Bindery.Proofs.Transaction.Sources

/-!
# Identifiers of arguments

The signature of a method declares an identifier for each parameter, and the body speaks
of a parameter by what a search for its identifier ends at. Both are so by the data of the
method, and by the text that is written for it.

* `CallArg.Conveys`: a value that is passed, by what the signature declares.
* `Method.Declares`: the signature and the values of a method.
* `Module.declares_arguments`: the signatures and values of all methods, and their text.
-/

namespace Bindery.Code

/-! ## Values that are passed -/

/-- What is passed for a source: a literal for a value, a reference for a variable, and
    for an argument the identifier that is declared for its name. -/
inductive CallArg.Conveys (args : List Argument) : ArgumentSource → CallArg → Prop
  | literal (v : Value) : Conveys args (.literal v) (.literal v)
  | var (name : String) : Conveys args (.var name) (.var name)
  | argument {a : Argument} (declared : a ∈ args) :
      Conveys args (.caller a.source) (.argument a.ident)

/-- What is passed for a source if identifiers are searched for among taken names. -/
def CallArg.searched (names : List (String × String)) : ArgumentSource → CallArg
  | .caller name => .argument (searchNames names name)
  | .var name => .var name
  | .literal v => .literal v

/-- The values that a method passes, by statement. -/
def Method.calls (m : Method) : List (List CallArg) :=
  match m.body with
  | .call _ _ args => [args]
  | .transaction steps => steps.map (·.args)

/-- The placeholders of the statements of a method, each with its source and with what is
    passed for it. -/
def Method.placeholders (m : Method) (sources : List (List ArgumentSource)) :
    List (ArgumentSource × CallArg) :=
  sources.flatten.zip m.calls.flatten

/-- The signature of a method declares the parameters, and its values are what it declares
    for the sources of the placeholders. -/
structure Method.Declares (m : Method) (handle : String) (params : List Variable)
    (sources : List (List ArgumentSource)) : Prop where
  params : m.arguments.map (fun a => Variable.mk a.source a.type) = params
  distinct : (m.arguments.map (·.ident)).Nodup
  apart : handle ∉ m.arguments.map (·.ident)
  /-- Every statement passes one value for each placeholder, in order. -/
  values : List.Forall₂ (List.Forall₂ (CallArg.Conveys m.arguments)) sources m.calls
  /-- The values do not depend on the order in which the taken names are kept. -/
  order : ∀ names, names.Perm (takenNames handle m.arguments) →
    m.calls = sources.map (·.map (CallArg.searched names))
  /-- Placeholders share an identifier exactly if their sources have one name. -/
  same : ∀ name name' ident ident',
    (.caller name, .argument ident) ∈ m.placeholders sources →
    (.caller name', .argument ident') ∈ m.placeholders sources →
    (ident = ident' ↔ name = name')
  /-- No identifier is used that the signature lacks. -/
  declared : ∀ values ∈ m.calls, ∀ ident, .argument ident ∈ values →
    ident ∈ m.arguments.map (·.ident)

namespace Claimed

variable {handle : String} {params : List Variable} {args : List Argument}

theorem conveys_stepArg (h : Claimed handle params args) {source : ArgumentSource}
    (listed : ∀ name, source = .caller name → name ∈ params.map (·.name)) :
    CallArg.Conveys args source (stepArg args source) := by
  cases source with
  | literal v => exact .literal v
  | var name => exact .var name
  | caller name =>
    obtain ⟨a, member, rfl⟩ := h.exists_of_mem_names (listed name rfl)
    show CallArg.Conveys args (.caller a.source) (.argument (identifierOf args a.source))
    rw [h.identifierOf_eq member]
    exact .argument member

theorem stepArg_eq_searched (h : Claimed handle params args)
    (own : Name.identifier handle = .ok handle) {names : List (String × String)}
    (order : names.Perm (takenNames handle args)) {source : ArgumentSource}
    (listed : ∀ name, source = .caller name → name ∈ params.map (·.name)) :
    stepArg args source = CallArg.searched names source := by
  cases source with
  | literal v => rfl
  | var name => rfl
  | caller name =>
    obtain ⟨a, member, rfl⟩ := h.exists_of_mem_names (listed name rfl)
    show CallArg.argument (identifierOf args a.source) = .argument (searchNames names a.source)
    rw [h.identifierOf_eq member, h.searchNames_eq own order member]

/-- Two values that are identifiers agree if and only if their sources do. -/
theorem conveys_eq_iff (h : Claimed handle params args) {name name' ident ident' : String}
    (first : CallArg.Conveys args (.caller name) (.argument ident))
    (second : CallArg.Conveys args (.caller name') (.argument ident')) :
    ident = ident' ↔ name = name' := by
  cases first with
  | argument member =>
    cases second with
    | argument member' => exact h.ident_eq_iff member member'

/-- A method whose arguments were claimed and whose values are looked up among them
    declares what it passes, if every argument that it uses is a parameter. -/
theorem declares {m : Method} (h : Claimed handle params m.arguments)
    (own : Name.identifier handle = .ok handle) {sources : List (List ArgumentSource)}
    (calls : m.calls = sources.map (·.map (stepArg m.arguments)))
    (listed : ∀ s ∈ sources, ∀ name, .caller name ∈ s → name ∈ params.map (·.name)) :
    m.Declares handle params sources := by
  have known : ∀ s ∈ sources, ∀ source ∈ s, ∀ name, source = .caller name →
      name ∈ params.map (·.name) := by
    intro s among source member name same
    exact listed s among name (same ▸ member)
  have values : List.Forall₂ (List.Forall₂ (CallArg.Conveys m.arguments)) sources m.calls := by
    rw [calls, List.forall₂_map_right_iff, List.forall₂_same]
    intro s among
    rw [List.forall₂_map_right_iff, List.forall₂_same]
    intro source member
    exact h.conveys_stepArg (known s among source member)
  have each : ∀ {source : ArgumentSource} {arg : CallArg},
      (source, arg) ∈ m.placeholders sources → CallArg.Conveys m.arguments source arg :=
    List.forall₂_zip (List.rel_flatten values)
  refine ⟨h.params, h.distinct, ?_, values, ?_, ?_, ?_⟩
  · intro taken
    obtain ⟨a, member, same⟩ := List.mem_map.1 taken
    exact h.apart a member same
  · intro names order
    rw [calls]
    apply List.map_congr_left
    intro s among
    apply List.map_congr_left
    intro source member
    exact h.stepArg_eq_searched own order (known s among source member)
  · intro name name' ident ident' first second
    exact h.conveys_eq_iff (each first) (each second)
  · rw [calls, List.forall_mem_map]
    intro s among ident used
    obtain ⟨source, member, same⟩ := List.mem_map.1 used
    have conveyed := h.conveys_stepArg (known s among source member)
    rw [same] at conveyed
    cases conveyed with
    | argument declared => exact List.mem_map_of_mem declared

end Claimed

/-! ## Methods -/

/-- The handles of methods are identifiers themselves. -/
theorem identifier_handle :
    Name.identifier queryHandle = .ok queryHandle ∧
      Name.identifier databaseHandle = .ok databaseHandle := by
  decide

theorem callArg_eq_stepArg (c : Compiled) (args : List Argument) (b : Binding) :
    callArg c args b.name = stepArg args (c.ownSource b) := by
  unfold callArg Compiled.ownSource
  cases c.fixedValue? b.name with
  | some v => rfl
  | none => rfl

/-- The arguments that an action uses by its own sources are those that a caller gives. -/
theorem mem_names_of_ownSource {c : Compiled} {name : String}
    (used : .caller name ∈ c.params.map c.ownSource) :
    name ∈ (c.arguments.map fun b => Variable.mk b.name b.type).map (·.name) := by
  obtain ⟨b, member, source_eq⟩ := List.mem_map.1 used
  unfold Compiled.ownSource at source_eq
  split at source_eq
  · cases source_eq
  · next free =>
    cases source_eq
    rw [List.map_map]
    exact Compiled.mem_names_arguments member free

theorem Method.claimed_ofCompiled {table ident : String} {c : Compiled} {m : Method}
    {record : Option RecordType} (h : Method.ofCompiled table ident c = .ok (m, record)) :
    Claimed queryHandle (c.arguments.map fun b => ⟨b.name, b.type⟩) m.arguments ∧
      m.calls = [c.params.map fun b => stepArg m.arguments (c.ownSource b)] := by
  obtain ⟨args, claimed, h₁⟩ := bind_eq_ok_iff.1 h
  obtain ⟨name, -, h₂⟩ := bind_eq_ok_iff.1 h₁
  obtain ⟨⟨helper, returned, _⟩, -, h₃⟩ := bind_eq_ok_iff.1 h₂
  cases h₃
  refine ⟨claimed_of_claimArguments claimed, ?_⟩
  show [c.params.map fun b => callArg c args b.name] = _
  simp only [callArg_eq_stepArg]

theorem Method.claimed_ofPlan {ident : String} {p : Plan} {m : Method}
    (h : Method.ofPlan ident p = .ok m) :
    Claimed databaseHandle p.args m.arguments ∧
      m.calls = (p.steps.map (·.args)).map (·.map (stepArg m.arguments)) := by
  obtain ⟨args, claimed, h₁⟩ := bind_eq_ok_iff.1 h
  cases h₁
  refine ⟨claimed_of_claimArguments claimed, ?_⟩
  show (p.steps.map (StepCall.ofPlanned args)).map (·.args) = _
  rw [List.map_map, List.map_map]
  rfl

theorem listed_ownSource (c : Compiled) :
    ∀ s ∈ [c.params.map c.ownSource], ∀ name, .caller name ∈ s →
      name ∈ (c.arguments.map fun b => Variable.mk b.name b.type).map (·.name) := by
  intro s among name used
  rw [List.mem_singleton.1 among] at used
  exact mem_names_of_ownSource used

/-- A plan lists every argument that its steps use. -/
theorem listed_of_plan {o : Options} {t : Transaction} {p : Plan} (h : t.plan o = .ok p) :
    ∀ s ∈ p.steps.map (·.args), ∀ name, .caller name ∈ s → name ∈ p.args.map (·.name) := by
  rw [List.forall_mem_map]
  intro s among name used
  obtain ⟨uses, resolved, args_eq⟩ := Transaction.resolved_of_plan h
  rw [args_eq, names_argumentsOf, List.mem_eraseDups, resolved.names_eq, List.map_nil,
    List.nil_append]
  have caller : name ∈ s.callers := List.mem_filterMap.2 ⟨.caller name, used, rfl⟩
  exact List.mem_flatMap.2 ⟨s, among, caller⟩

/-- The sources of a step of a plan are those that its definition has for the parameters
    of its action, and a variable among them is exported by an earlier step. -/
theorem sources_of_plan {o : Options} {t : Transaction} {p : Plan} (h : t.plan o = .ok p)
    {i : Nat} {step : TransactionStep} {planned : PlannedStep} (hstep : t.steps[i]? = some step)
    (hplanned : p.steps[i]? = some planned) :
    ∃ c, step.action.compile o = .ok c ∧ planned.args = c.params.map (step.placeholderSource c) ∧
      ∀ name, .var name ∈ planned.args → ExportedBefore t.steps i name := by
  obtain ⟨uses, resolved, -⟩ := Transaction.resolved_of_plan h
  obtain ⟨c, table, resolves, -, known⟩ := resolved.at_place hstep hplanned
  refine ⟨c, resolves.compiled, resolves.args, ?_⟩
  intro name used
  rcases known name (resolves.vars name used) with absent | exported
  · cases absent
  · exact exported

/-- The method of every compiled action that a module takes, and the method of every plan
    of a transaction, declares arguments of different identifiers, none of them that of the
    handle. It passes for each placeholder the literal of the value that is fixed or bound,
    a reference to the variable that an earlier step exports, or the identifier that is
    declared for the name of the argument, in whatever order the taken names are kept. This
    is what the module says at its end: one spelling of the names writes the lines of the
    signature and what is passed for each placeholder. -/
theorem Module.declares_arguments (m : Module) :
    (∀ c m', m.addCompiled c = .ok m' → ∃ method, m'.methods = m.methods ++ [method] ∧
      method.Declares queryHandle (c.arguments.map fun b => ⟨b.name, b.type⟩)
        [c.params.map c.ownSource] ∧
      ∃ spell helper, Spelling queryHandle (c.arguments.map fun b => ⟨b.name, b.type⟩)
          [c.params.map c.ownSource] spell ∧
        ∀ o, ∃ before, m'.text o = before ++ actionText o.runtimePath method.ident
          (method.returned.text o.runtimePath) helper spell c ++ "\x7d\n") ∧
    ∀ o t p m', Transaction.plan o t = .ok p → m.addPlan p = .ok m' →
      ∃ method, m'.methods = m.methods ++ [method] ∧
        method.Declares databaseHandle p.args (p.steps.map (·.args)) ∧
        p.steps.length = t.steps.length ∧
        (∀ i step planned, t.steps[i]? = some step → p.steps[i]? = some planned →
          ∃ c, step.action.compile o = .ok c ∧
            planned.args = c.params.map (step.placeholderSource c) ∧
            ∀ name, .var name ∈ planned.args → ExportedBefore t.steps i name) ∧
        ∃ spell, Spelling databaseHandle p.args (p.steps.map (·.args)) spell ∧
          ∀ o, ∃ before, m'.text o =
            before ++ planText o.runtimePath method.ident spell p ++ "\x7d\n" := by
  constructor
  · intro c m' h
    obtain ⟨ident, -, h₁⟩ := bind_eq_ok_iff.1 h
    obtain ⟨⟨method, record⟩, made, h₂⟩ := bind_eq_ok_iff.1 h₁
    have added : m'.methods = m.methods ++ [method] := by
      cases h₂
      rfl
    obtain ⟨claimed, calls⟩ := Method.claimed_ofCompiled made
    obtain ⟨helper, written⟩ := Method.text_ofCompiled made
    refine ⟨method, added, claimed.declares identifier_handle.1 ?_ (listed_ownSource c),
      identifierOf method.arguments, helper.label,
      claimed.spelling identifier_handle.1 (listed_ownSource c), fun o => ?_⟩
    · rw [calls, List.map_singleton, List.map_map]
      rfl
    · obtain ⟨before, text⟩ := Module.text_concat added o
      refine ⟨before, ?_⟩
      rw [text, written]
  · intro o t p m' accepted h
    obtain ⟨ident, -, h₁⟩ := bind_eq_ok_iff.1 h
    obtain ⟨method, made, h₂⟩ := bind_eq_ok_iff.1 h₁
    have added : m'.methods = m.methods ++ [method] := by
      cases h₂
      rfl
    obtain ⟨uses, resolved, -⟩ := Transaction.resolved_of_plan accepted
    obtain ⟨claimed, calls⟩ := Method.claimed_ofPlan made
    refine ⟨method, added, claimed.declares identifier_handle.2 calls (listed_of_plan accepted),
      resolved.length_eq, fun i step planned => sources_of_plan accepted,
      identifierOf method.arguments,
      claimed.spelling identifier_handle.2 (listed_of_plan accepted), fun o => ?_⟩
    obtain ⟨before, text⟩ := Module.text_concat added o
    refine ⟨before, ?_⟩
    rw [text, Method.text_ofPlan made]

/-- The methods of a paged union with fixed parameters, and of a transaction with a
    parameter that is bound to an argument of another name. -/
theorem postMethods_declare :
    ∃ m c m' method p m'' method', Module.ofTable posts = .ok m ∧
      firstPages.compile {} = .ok c ∧ m.addCompiled c = .ok m' ∧
      m'.methods = m.methods ++ [method] ∧
      method.arguments.map (·.source) = ["high", "limit", "offset"] ∧
      method.Declares queryHandle (c.arguments.map fun b => ⟨b.name, b.type⟩)
        [c.params.map c.ownSource] ∧
      moveViews.plan {} = .ok p ∧ m.addPlan p = .ok m'' ∧
      m''.methods = m.methods ++ [method'] ∧
      method'.arguments.map (·.source) = ["from", "id"] ∧
      ∀ names, names.Perm (takenNames databaseHandle method'.arguments) →
        method'.calls = [[.argument (searchNames names "from")],
          [.literal (.int 0), .argument (searchNames names "from")],
          [.var "n", .argument (searchNames names "id")]] := by
  have emitted : ∃ m c m' p m'', Module.ofTable posts = .ok m ∧ firstPages.compile {} = .ok c ∧
      m.addCompiled c = .ok m' ∧ c.arguments.map (·.name) = ["high", "limit", "offset"] ∧
      moveViews.plan {} = .ok p ∧ m.addPlan p = .ok m'' ∧ p.args.map (·.name) = ["from", "id"] ∧
      p.steps.map (·.args) = [[.caller "from"], [.literal (.int 0), .caller "from"],
        [.var "n", .caller "id"]] :=
    ⟨_, _, _, _, _, rfl, rfl, rfl, rfl, rfl, rfl, rfl, rfl⟩
  obtain ⟨m, c, m', p, m'', made, compiled, added, given, planned, added', args, sources⟩ := emitted
  obtain ⟨actions, plans⟩ := Module.declares_arguments m
  obtain ⟨method, methods, declares, -⟩ := actions c m' added
  obtain ⟨method', methods', declares', -⟩ := plans {} moveViews p m'' planned added'
  have sources_eq : method.arguments.map (·.source) = c.arguments.map (·.name) := by
    have names := congrArg (List.map (·.name)) declares.params
    rwa [List.map_map, List.map_map] at names
  have sources_eq' : method'.arguments.map (·.source) = p.args.map (·.name) := by
    rw [← declares'.params, List.map_map]
    rfl
  refine ⟨m, c, m', method, p, m'', method', made, compiled, added, methods,
    sources_eq.trans given, declares, planned, added', methods', sources_eq'.trans args, ?_⟩
  intro names order
  rw [declares'.order names order, sources]
  rfl

end Bindery.Code
