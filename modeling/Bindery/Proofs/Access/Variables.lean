import Bindery.Proofs.Access.Performed

/-!
# Variables of a run

What the variables hold after exports: each of them once, with the value of its
last export.

* `Variables.lookup_set`, `Variables.lookup_erase`: the values after a change.
* `Performed.exports`: what a step that passed exports, in order.
* `Passes.lookup`: the variables after steps hold their last exports.
-/

namespace Bindery

theorem lookup_cons_eq_ite {α : Type} (name other : String) (v : α) (rest : List (String × α)) :
    ((name, v) :: rest).lookup other = if other = name then some v else rest.lookup other := by
  by_cases here : other = name
  · simp [here]
  · simp [List.lookup_cons, here, beq_eq_false_iff_ne.2 here]

namespace Variables

/-- The names of the variables. -/
def names (vs : Variables) : List String := vs.entries.map (·.1)

theorem get_eq_ok_iff {vs : Variables} {name : String} {v : Value} :
    vs.get name = .ok v ↔ vs.entries.lookup name = some v := by
  rw [get]
  split
  · next found => simp [found]
  · next missing => simp [missing]

theorem get_eq_error_iff {vs : Variables} {name : String} {e : AccessError} :
    vs.get name = .error e ↔ vs.entries.lookup name = none ∧ e = .missingVariable name := by
  rw [get]
  split
  · next found => simp [found]
  · next missing => simp [missing, eq_comm]

theorem lookup_isSome_iff {vs : Variables} {name : String} :
    (∃ v, vs.entries.lookup name = some v) ↔ name ∈ vs.names := by
  rw [names]
  induction vs.entries with
  | nil => simp
  | cons entry rest ih =>
    obtain ⟨n, v⟩ := entry
    rw [lookup_cons_eq_ite, List.map_cons, List.mem_cons, ← ih]
    by_cases here : name = n
    · simp [here]
    · simp [here]

theorem names_erase (vs : Variables) (name : String) :
    (vs.erase name).names = vs.names.filter (· != name) := by
  rw [names, names, erase, List.filter_map]
  rfl

theorem names_set (vs : Variables) (name : String) (v : Value) :
    (vs.set name v).names = vs.names.filter (· != name) ++ [name] := by
  rw [names, set, List.map_append, ← names, names_erase, List.map_singleton]

theorem nodup_names_set {vs : Variables} (h : vs.names.Nodup) (name : String) (v : Value) :
    (vs.set name v).names.Nodup := by
  rw [names_set, List.nodup_append]
  refine ⟨h.filter _, by simp, ?_⟩
  intro a ha b hb
  simp at ha hb
  rw [hb]
  exact ha.2

theorem lookup_erase (vs : Variables) (name other : String) :
    (vs.erase name).entries.lookup other =
      if other = name then none else vs.entries.lookup other := by
  rw [erase]
  dsimp only
  induction vs.entries with
  | nil => simp
  | cons entry rest ih =>
    obtain ⟨n, v⟩ := entry
    rw [lookup_cons_eq_ite]
    by_cases kept : n = name
    · rw [List.filter_cons_of_neg (by simp [kept]), ih, kept]
      split
      · rfl
      · rfl
    · rw [List.filter_cons_of_pos (by simp [kept]), lookup_cons_eq_ite, ih]
      by_cases here : other = n
      · simp [here, kept]
      · simp [here]

theorem lookup_set (vs : Variables) (name other : String) (v : Value) :
    (vs.set name v).entries.lookup other =
      if other = name then some v else vs.entries.lookup other := by
  rw [set, List.lookup_append, lookup_erase]
  by_cases here : other = name
  · simp [here]
  · simp [here, lookup_cons_eq_ite]

end Variables

/-! ## Exports -/

theorem exportAll_cons_eq_ok_iff {a : Answer} {vars vars' : Variables} {e : RoutineExport}
    {rest : List RoutineExport} :
    exportAll a vars (e :: rest) = .ok vars' ↔
      ∃ v, e.value a = .ok v ∧ exportAll a (vars.set e.var v) rest = .ok vars' :=
  bind_eq_ok_iff

/-- Names with one more export: a name that was there moves to the end. -/
def exportName (names : List String) (var : String) : List String :=
  names.filter (· != var) ++ [var]

theorem mem_foldl_exportName {vars names : List String} {name : String} :
    name ∈ vars.foldl exportName names ↔ name ∈ names ∨ name ∈ vars := by
  induction vars generalizing names with
  | nil => simp
  | cons var rest ih =>
    rw [List.foldl_cons, ih, exportName]
    by_cases here : name = var
    · simp [here]
    · simp [here]

theorem names_exportAll {a : Answer} {es : List RoutineExport} {vars vars' : Variables}
    (h : exportAll a vars es = .ok vars') :
    vars'.names = (es.map (·.var)).foldl exportName vars.names := by
  induction es generalizing vars with
  | nil =>
    cases h
    rfl
  | cons e rest ih =>
    obtain ⟨v, -, h₁⟩ := exportAll_cons_eq_ok_iff.1 h
    rw [ih h₁, Variables.names_set]
    rfl

theorem nodup_names_exportAll {a : Answer} {es : List RoutineExport} {vars vars' : Variables}
    (distinct : vars.names.Nodup) (h : exportAll a vars es = .ok vars') : vars'.names.Nodup := by
  induction es generalizing vars with
  | nil =>
    cases h
    exact distinct
  | cons e rest ih =>
    obtain ⟨v, -, h₁⟩ := exportAll_cons_eq_ok_iff.1 h
    exact ih (Variables.nodup_names_set distinct e.var v) h₁

/-- The value that a variable gets last, or else keeps. -/
theorem lookup_exportAll {a : Answer} {es : List RoutineExport} {vars vars' : Variables}
    (h : exportAll a vars es = .ok vars') (name : String) :
    (vars'.entries.lookup name).map Except.ok =
      ((es.map fun e => (e.var, e.value a)).reverse.lookup name).or
        ((vars.entries.lookup name).map .ok) := by
  induction es generalizing vars with
  | nil =>
    cases h
    rfl
  | cons e rest ih =>
    obtain ⟨v, hv, h₁⟩ := exportAll_cons_eq_ok_iff.1 h
    rw [ih h₁, List.map_cons, List.reverse_cons, List.lookup_append, Option.or_assoc,
      Variables.lookup_set, lookup_cons_eq_ite, hv]
    by_cases here : name = e.var
    · simp [here]
    · simp [here]

/-! ## Steps -/

/-- What a step that passed exports, in order. -/
def Performed.exports (p : Performed) : List (String × Except AccessError Value) :=
  p.step.exports.map fun e => (e.var, e.value p.answer)

namespace Passes

variable {σ : Type} {h : Handle σ} {vars vars' : Variables} {s s' : σ} {ps : List Performed}

/-- The names of the variables after steps. -/
theorem names (passes : Passes h vars s ps vars' s') :
    vars'.names = (ps.flatMap fun p => p.step.exports.map (·.var)).foldl exportName vars.names := by
  induction passes with
  | nil => rfl
  | cons _ _ exported _ ih =>
    rw [ih, names_exportAll exported, List.flatMap_cons, List.foldl_append]

theorem nodup_names (passes : Passes h vars s ps vars' s') (distinct : vars.names.Nodup) :
    vars'.names.Nodup := by
  induction passes with
  | nil => exact distinct
  | cons _ _ exported _ ih => exact ih (nodup_names_exportAll distinct exported)

/-- A variable has the value of its last export, or else the one it had before
    the steps. -/
theorem lookup (passes : Passes h vars s ps vars' s') (name : String) :
    (vars'.entries.lookup name).map Except.ok =
      ((ps.flatMap Performed.exports).reverse.lookup name).or
        ((vars.entries.lookup name).map .ok) := by
  induction passes with
  | nil => rfl
  | cons _ _ exported _ ih =>
    rw [ih, lookup_exportAll exported, List.flatMap_cons, List.reverse_append, List.lookup_append,
      Option.or_assoc]
    rfl

end Passes

end Bindery
