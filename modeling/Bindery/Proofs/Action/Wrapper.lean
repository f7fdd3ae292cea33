import Bindery.Proofs.Statement.Placeholders

/-!
# Wrappers

However many wrappers stand around an action, they amount to the list of the values
they fix, the innermost wrapper's first. The list is accepted if it fixes no
parameter twice and nothing but parameters of the statement, wherever one wrapper
ends and the next begins.

* `Action.core`, `Action.fixedArguments`: the action below all wrappers, and what
  they fix.
* `fixArguments_eq_ok_iff`: the lists that are accepted.
* `fixArguments_append`: two rounds are one.
* `Action.compile_wrapped`: an action compiles as its core with the list fixed.
-/

namespace Bindery

/-! ## Chains of wrappers -/

/-- The action below all wrappers. -/
def Action.core : Action → Action
  | .perform name table task => .perform name table task
  | .wrap _ _ inner _ => inner.core

/-- The values that wrappers fix, the innermost wrapper's first. -/
def Action.fixedArguments : Action → List (String × Value)
  | .perform _ _ _ => []
  | .wrap _ _ inner args => inner.fixedArguments ++ args

/-- The names of the parameters that wrappers fix. -/
def Action.fixedNames (a : Action) : List String := a.fixedArguments.map (·.1)

/-! ## Fixed parameters -/

theorem fixArguments_cons (params : List String) (fixed : List (String × Value)) (name : String)
    (value : Value) (rest : List (String × Value)) :
    fixArguments params fixed ((name, value) :: rest) =
      if name ∈ params ∧ name ∉ fixed.map (·.1) then
        fixArguments params (fixed ++ [(name, value)]) rest
      else .error (.unknownWrapArgument name) := by
  have free_iff : (params.contains name && !fixed.any (·.1 == name)) = true ↔
      name ∈ params ∧ name ∉ fixed.map (·.1) := by
    rw [Bool.and_eq_true, List.contains_iff_mem, Bool.not_eq_true', List.any_eq_false]
    simp only [beq_iff_eq, List.mem_map, not_exists, not_and]
  rw [fixArguments]
  exact if_congr free_iff rfl rfl

/-- Values that are fixed in two rounds might be fixed in one. -/
theorem fixArguments_append (params : List String) (fixed xs ys : List (String × Value)) :
    fixArguments params fixed (xs ++ ys) =
      fixArguments params fixed xs >>= fun fixed' => fixArguments params fixed' ys := by
  induction xs generalizing fixed with
  | nil => rfl
  | cons x xs ih =>
    obtain ⟨name, value⟩ := x
    rw [List.cons_append, fixArguments_cons, fixArguments_cons]
    split
    · exact ih (fixed ++ [(name, value)])
    · rfl

/-- Values are fixed if they are for parameters, each of which is fixed once. -/
theorem fixArguments_eq_ok_iff {params : List String} {fixed args fixed' : List (String × Value)}
    (distinct : (fixed.map (·.1)).Nodup) :
    fixArguments params fixed args = .ok fixed' ↔
      fixed' = fixed ++ args ∧ ((fixed ++ args).map (·.1)).Nodup ∧
        ∀ name ∈ args.map (·.1), name ∈ params := by
  induction args generalizing fixed with
  | nil => simp [fixArguments, distinct, eq_comm]
  | cons arg rest ih =>
    obtain ⟨name, value⟩ := arg
    rw [fixArguments_cons]
    by_cases free : name ∈ params ∧ name ∉ fixed.map (·.1)
    · have fresh : ((fixed ++ [(name, value)]).map (·.1)).Nodup := by
        rw [List.map_append, List.map_singleton, ← List.concat_eq_append]
        exact List.Nodup.concat free.2 distinct
      rw [if_pos free, ih fresh, List.append_cons fixed (name, value) rest,
        List.map_cons, List.forall_mem_cons]
      simp [free.1]
    · rw [if_neg free]
      refine iff_of_false (by simp) ?_
      rintro ⟨-, all_distinct, params_only⟩
      refine free ⟨params_only name (by simp), fun taken => ?_⟩
      rw [List.map_append, List.nodup_append] at all_distinct
      exact all_distinct.2.2 name taken name (by simp) rfl

/-! ## Preparing -/

theorem Action.prepare_wrap (naming : Naming) (name : String) (table : Table) (inner : Action)
    (args : List (String × Value)) :
    (Action.wrap name table inner args).prepare naming =
      inner.prepare naming >>= fun p =>
        (fixArguments (p.statement.bindings.map (·.name)) p.fixed args).map fun fixed =>
          { p with name, table := table.name, fixed } := rfl

/-- An action is prepared as its core is, with all values fixed at once. -/
theorem Action.prepare_eq_ok_iff {naming : Naming} {a : Action} {p : Prepared} :
    a.prepare naming = .ok p ↔
      ∃ b, a.core.prepare naming = .ok b ∧ a.fixedNames.Nodup ∧
        (∀ name ∈ a.fixedNames, name ∈ b.statement.bindings.map (·.name)) ∧
        p = { b with name := a.name, table := a.table.name, fixed := a.fixedArguments } := by
  induction a generalizing p with
  | perform name table task =>
    have unwrapped : ∀ b, (Action.perform name table task).prepare naming = .ok b →
        b = { b with name, table := table.name, fixed := [] } := by
      intro b hb
      obtain ⟨⟨kind, statement, shape⟩, -, made⟩ := bind_eq_ok_iff.1 hb
      cases made
      rfl
    constructor
    · intro h
      exact ⟨p, h, List.nodup_nil, by simp [fixedNames, fixedArguments], unwrapped p h⟩
    · rintro ⟨b, hb, -, -, rfl⟩
      exact hb.trans (congrArg _ (unwrapped b hb))
  | wrap name table inner args ih =>
    have names_eq : (Action.wrap name table inner args).fixedNames =
        (inner.fixedArguments ++ args).map (·.1) := rfl
    rw [Action.prepare_wrap, bind_eq_ok_iff]
    constructor
    · rintro ⟨q, hq, h⟩
      obtain ⟨b, hb, distinct, within, rfl⟩ := ih.1 hq
      obtain ⟨fixed, hfixed, rfl⟩ := map_eq_ok_iff.1 h
      obtain ⟨rfl, all_distinct, args_within⟩ := (fixArguments_eq_ok_iff distinct).1 hfixed
      refine ⟨b, hb, all_distinct, ?_, rfl⟩
      rw [names_eq, List.map_append, List.forall_mem_append]
      exact ⟨within, args_within⟩
    · rintro ⟨b, hb, all_distinct, within, rfl⟩
      rw [names_eq, List.map_append, List.forall_mem_append] at within
      have distinct : inner.fixedNames.Nodup := by
        rw [names_eq, List.map_append] at all_distinct
        exact (List.nodup_append.1 all_distinct).1
      refine ⟨_, ih.2 ⟨b, hb, distinct, within.1, rfl⟩, map_eq_ok_iff.2 ⟨_, ?_, rfl⟩⟩
      exact (fixArguments_eq_ok_iff distinct).2 ⟨rfl, all_distinct, within.2⟩

/-- Two wrappers are one that fixes the values of both. -/
theorem Action.prepare_wrap_wrap (naming : Naming) (name name' : String) (table table' : Table)
    (a : Action) (xs ys : List (String × Value)) :
    (Action.wrap name table (.wrap name' table' a xs) ys).prepare naming =
      (Action.wrap name table a (xs ++ ys)).prepare naming := by
  rw [prepare_wrap, prepare_wrap, prepare_wrap]
  cases a.prepare naming with
  | error fault => rfl
  | ok p =>
    show (fixArguments _ p.fixed xs).map _ >>= _ = (fixArguments _ p.fixed (xs ++ ys)).map _
    rw [fixArguments_append]
    cases fixArguments (p.statement.bindings.map (·.name)) p.fixed xs with
    | error fault => rfl
    | ok fixed => rfl

/-! ## Compiling -/

theorem lookup_eq_none_iff_not_mem {α : Type} {xs : List (String × α)} {name : String} :
    xs.lookup name = none ↔ name ∉ xs.map (·.1) := by
  rw [List.lookup_eq_none_iff]
  simp only [bne_iff_ne, ne_eq, List.mem_map, not_exists, not_and, @eq_comm _ name]

theorem Compiled.fixedValue?_isNone_iff {c : Compiled} {name : String} :
    (c.fixedValue? name).isNone = true ↔ name ∉ c.fixed.map (·.1) := by
  rw [Option.isNone_iff_eq_none]
  exact lookup_eq_none_iff_not_mem

theorem Action.compile_eq_ok_iff_core {o : Options} {a : Action} {c : Compiled} :
    a.compile o = .ok c ↔
      ∃ b, a.core.compile o = .ok b ∧ a.fixedNames.Nodup ∧
        (∀ name ∈ a.fixedNames, name ∈ b.params.map (·.name)) ∧
        c = { b with name := a.name, table := a.table.name, fixed := a.fixedArguments } := by
  rw [compile_eq_ok_iff]
  constructor
  · rintro ⟨p, hp, rfl⟩
    obtain ⟨b, hb, distinct, within, rfl⟩ := prepare_eq_ok_iff.1 hp
    exact ⟨b.render o.dialect, compile_eq_ok_iff.2 ⟨b, hb, rfl⟩, distinct, within, rfl⟩
  · rintro ⟨c, hc, distinct, within, rfl⟩
    obtain ⟨b, hb, rfl⟩ := compile_eq_ok_iff.1 hc
    exact ⟨_, prepare_eq_ok_iff.2 ⟨b, hb, distinct, within, rfl⟩, rfl⟩

/-- A compiled action has the statement of the task below its wrappers. -/
theorem Action.task_of_compile {o : Options} {a : Action} {c : Compiled} {name : String}
    {table : Table} {task : Task} (h : a.compile o = .ok c)
    (core : a.core = .perform name table task) :
    ∃ kind statement shape, task.prepare o.naming table = .ok (kind, statement, shape) ∧
      c.sql = statement.sql o.dialect ∧ c.params = statement.bindings := by
  obtain ⟨b, hb, -, -, rfl⟩ := compile_eq_ok_iff_core.1 h
  rw [core] at hb
  obtain ⟨p, hp, rfl⟩ := compile_eq_ok_iff.1 hb
  exact ⟨_, _, _, (prepare_perform_eq_ok hp).1, rfl, rfl⟩

/-- The arguments of a compiled action with other values fixed. -/
theorem Compiled.arguments_of_fixed {b c : Compiled} (params : c.params = b.params)
    (none : b.fixed = []) :
    c.arguments = b.arguments.filter fun p => p.name ∉ c.fixed.map (·.1) := by
  have all : b.arguments = b.sqlArguments := by
    unfold arguments
    rw [List.filter_eq_self]
    intro p _
    rw [fixedValue?_isNone_iff, none]
    simp
  rw [all]
  unfold arguments sqlArguments
  rw [params]
  refine List.filter_congr fun p _ => ?_
  rw [Bool.eq_iff_iff, fixedValue?_isNone_iff, decide_eq_true_iff]

theorem Action.fixed_compile_core {o : Options} {a : Action} {b : Compiled}
    (h : a.core.compile o = .ok b) : b.fixed = [] := by
  induction a with
  | perform name table task =>
    obtain ⟨p, hp, rfl⟩ := compile_eq_ok_iff.1 h
    exact (prepare_perform_eq_ok hp).2
  | wrap name table inner args ih => exact ih h

/-- The name and the table of a wrapper show in nothing else. -/
theorem Action.map_compile_wrap (o : Options) (name name' : String) (table table' : Table)
    (a : Action) (args : List (String × Value)) :
    ((Action.wrap name table a args).compile o).map
        (fun c => { c with name := name', table := table'.name }) =
      (Action.wrap name' table' a args).compile o := by
  rw [compile_eq_map_prepare, compile_eq_map_prepare, prepare_wrap, prepare_wrap]
  cases a.prepare o.naming with
  | error fault => rfl
  | ok p =>
    show (((fixArguments _ p.fixed args).map _).map _).map _ =
      ((fixArguments _ p.fixed args).map _).map _
    cases fixArguments (p.statement.bindings.map (·.name)) p.fixed args with
    | error fault => rfl
    | ok fixed => rfl

/-- An action compiles if and only if its core does and its wrappers fix different
    parameters of the core. It is then its core under the name and table of the
    outermost wrapper, with all the values fixed, and the caller gives the other
    arguments of the core in their order. So two wrappers are one that fixes the
    values of both: they have the same result or the same fault, but for name and
    table. -/
theorem Action.compile_wrapped (o : Options) (a : Action) :
    (∀ c, a.compile o = .ok c ↔
      ∃ b, a.core.compile o = .ok b ∧ a.fixedNames.Nodup ∧
        (∀ name ∈ a.fixedNames, name ∈ b.params.map (·.name)) ∧
        c = { b with name := a.name, table := a.table.name, fixed := a.fixedArguments }) ∧
    (∀ b c, a.core.compile o = .ok b → a.compile o = .ok c →
      c.arguments = b.arguments.filter fun p => p.name ∉ a.fixedNames) ∧
    ∀ (name name' name'' : String) (table table' table'' : Table) (xs ys : List (String × Value)),
      ((Action.wrap name table (.wrap name' table' a xs) ys).compile o).map
          (fun c => { c with name := name'', table := table''.name }) =
        (Action.wrap name'' table'' a (xs ++ ys)).compile o := by
  refine ⟨fun c => compile_eq_ok_iff_core, ?_, ?_⟩
  · intro b c hb hc
    obtain ⟨b', hb', -, -, rfl⟩ := compile_eq_ok_iff_core.1 hc
    obtain rfl : b = b' := Except.ok.inj (hb.symm.trans hb')
    exact Compiled.arguments_of_fixed rfl (fixed_compile_core hb)
  · intro name name' name'' table table' table'' xs ys
    rw [map_compile_wrap]
    rw [compile_eq_map_prepare, compile_eq_map_prepare, prepare_wrap_wrap]

/-- Pages of accounts with three parameters fixed, by two wrappers. -/
def firstPages : Action := .wrap "first" accounts pagedUnion [("top", .int 99), ("low", .int 1)]

theorem firstPages_compile :
    ∃ b c, firstPages.core.compile {} = .ok b ∧ firstPages.compile {} = .ok c ∧
      c.name = "first" ∧ c.sql = b.sql ∧
      c.fixed = [("id", .int 7), ("top", .int 99), ("low", .int 1)] ∧
      c.arguments.map (·.name) = ["high", "limit", "offset"] := by
  obtain ⟨compiles, arguments, -⟩ := Action.compile_wrapped {} firstPages
  have core : ∃ b, firstPages.core.compile {} = .ok b := ⟨_, rfl⟩
  obtain ⟨b, hb⟩ := core
  have params : b.params = firstPages.core.occurrences := by
    obtain ⟨p, hp, rfl⟩ := Action.compile_eq_ok_iff.1 hb
    exact Action.bindings_prepare hp
  have hc := (compiles _).2 ⟨b, hb, by decide, by rw [params]; decide, rfl⟩
  refine ⟨b, _, hb, hc, rfl, rfl, rfl, ?_⟩
  rw [arguments b _ hb hc]
  unfold Compiled.arguments Compiled.sqlArguments Compiled.fixedValue?
  rw [params, Action.fixed_compile_core hb]
  decide

end Bindery
