import Bindery.Proofs.Statement.Conflicts
import Bindery.Proofs.Transaction.Single
import Bindery.Proofs.Transaction.Sources

/-!
# The parameters of compiled actions

The parameters of a compiled action agree in their types, however they came into the
statement, so each name is one argument. Some arguments are fixed by wrappers, each of
them once, and the caller gives the others.

* `Compiled.ListsParameters`: the arguments of a compiled action.
* `Action.compile_lists_or_clashes`: an action that compiles lists its parameters so,
  and one that is refused over a parameter uses its name with two types.
-/

namespace Bindery

theorem nodup_names_distinctBindings (bs : List Binding) :
    ((distinctBindings bs).map (·.name)).Nodup := by
  induction bs with
  | nil => exact List.nodup_nil
  | cons b rest ih =>
    rw [distinctBindings_cons, List.map_cons, List.nodup_cons]
    constructor
    · intro repeated
      obtain ⟨b', member, same⟩ := List.mem_map.1 repeated
      have differ := (List.mem_filter.1 member).2
      rw [bne_iff_ne] at differ
      exact differ same
    · exact ih.sublist (List.filter_sublist.map _)

namespace Compiled

theorem mem_names_arguments_iff {c : Compiled} {name : String} :
    name ∈ c.arguments.map (·.name) ↔
      name ∈ c.sqlArguments.map (·.name) ∧ name ∉ c.fixed.map (·.1) := by
  constructor
  · intro given
    obtain ⟨b, member, rfl⟩ := List.mem_map.1 given
    obtain ⟨listed, free⟩ := List.mem_filter.1 member
    exact ⟨List.mem_map_of_mem listed, fixedValue?_isNone_iff.1 free⟩
  · rintro ⟨listed, free⟩
    obtain ⟨b, member, rfl⟩ := List.mem_map.1 listed
    exact List.mem_map_of_mem (List.mem_filter.2 ⟨member, fixedValue?_isNone_iff.2 free⟩)

/-- What wrappers fix and what the caller gives are the arguments of a statement. -/
theorem arguments_append_fixed_perm {c : Compiled} (once : (c.fixed.map (·.1)).Nodup)
    (used : c.fixed.map (·.1) ⊆ c.params.map (·.name)) :
    (c.arguments.map (·.name) ++ c.fixed.map (·.1)).Perm (c.sqlArguments.map (·.name)) := by
  have distinct := nodup_names_distinctBindings c.params
  have listed : c.fixed.map (·.1) ⊆ c.sqlArguments.map (·.name) := by
    intro name fixed
    show name ∈ (distinctBindings c.params).map (·.name)
    rw [names_distinctBindings, List.mem_eraseDups]
    exact used fixed
  have given : (c.arguments.map (·.name)).Nodup := distinct.sublist (List.filter_sublist.map _)
  have apart : (c.arguments.map (·.name)).Disjoint (c.fixed.map (·.1)) := by
    intro name given fixed
    exact (mem_names_arguments_iff.1 given).2 fixed
  -- No name is repeated on either side, so it is enough to compare the members.
  refine (List.perm_ext_iff_of_nodup (given.append once apart) distinct).2 ?_
  intro name
  rw [List.mem_append, mem_names_arguments_iff]
  by_cases fixed : name ∈ c.fixed.map (·.1)
  · exact iff_of_true (.inr fixed) (listed fixed)
  · exact ⟨fun h => (h.resolve_right fixed).1, fun h => .inl ⟨h, fixed⟩⟩

/-- The arguments of a compiled action: each name once, fixed or given. -/
structure ListsParameters (c : Compiled) : Prop where
  agree : ∀ b ∈ c.params, ∀ b' ∈ c.params, b.name = b'.name → b.type = b'.type
  /-- The arguments of the statement come in the order in which their names first
      appear. -/
  order : c.sqlArguments.map (·.name) = (c.params.map (·.name)).eraseDups
  distinct : (c.sqlArguments.map (·.name)).Nodup
  /-- Each of them is given by the caller or fixed. -/
  parts : (c.arguments.map (·.name) ++ c.fixed.map (·.1)).Perm (c.sqlArguments.map (·.name))
  once : (c.fixed.map (·.1)).Nodup

end Compiled

theorem Action.fixed_subset_params {o : Options} {a : Action} {c : Compiled}
    (h : a.compile o = .ok c) : c.fixed.map (·.1) ⊆ c.params.map (·.name) := by
  obtain ⟨b, -, -, within, rfl⟩ := compile_eq_ok_iff_core.1 h
  exact within

/-- An action that compiles, wrapped or not, lists each of its parameters once, with one
    type for each name; an action is refused over a parameter only if its name is used
    with two types. -/
theorem Action.compile_lists_or_clashes (o : Options) (a : Action) :
    (∀ c, a.compile o = .ok c → c.ListsParameters) ∧
      ∀ name, a.compile o = .error (.conflictingParam name) → Clash a.occurrences name := by
  constructor
  · intro c h
    have once := nodup_fixed_compile h
    exact {
      agree := agree_compile h
      order := names_distinctBindings c.params
      distinct := nodup_names_distinctBindings c.params
      parts := Compiled.arguments_append_fixed_perm once (fixed_subset_params h)
      once }
  · exact justified_compile o a

/-- A page of the accounts of a name, by a parameter that is called like the size of the
    page. -/
def namedPage : Action :=
  .perform "named" accounts (.select {
    filter := { conditions := [.equals (.ofMain "name") ⟨"limit", { scalar := .text }⟩] }
    paginated := true })

theorem firstPages_listed :
    (∃ c, firstPages.compile {} = .ok c ∧ c.fixed.map (·.1) = ["id", "top", "low"] ∧
      c.ListsParameters) ∧
    namedPage.compile {} = .error (.conflictingParam "limit") ∧
    Clash namedPage.occurrences "limit" := by
  have compiles : ∃ c, firstPages.compile {} = .ok c ∧ c.fixed.map (·.1) = ["id", "top", "low"] :=
    ⟨_, rfl, rfl⟩
  have refused : namedPage.compile {} = .error (.conflictingParam "limit") := rfl
  obtain ⟨c, h, fixed⟩ := compiles
  obtain ⟨lists, -⟩ := Action.compile_lists_or_clashes {} firstPages
  obtain ⟨-, clashes⟩ := Action.compile_lists_or_clashes {} namedPage
  exact ⟨⟨c, h, fixed, lists c h⟩, refused, clashes "limit" refused⟩

example : ¬ Clash firstPages.occurrences "limit" := by decide

end Bindery
