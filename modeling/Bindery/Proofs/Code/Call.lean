import Bindery.Code.Method
import Bindery.Proofs.Transaction.Arguments
import Bindery.Proofs.Transaction.Simulation

/-!
# Calls of emitted methods

A method is called with a value for each of its parameters, and its body speaks of
them by identifiers. As the identifiers of a method differ, each of them stands for
the value of the parameter it was claimed for, and the placeholders of the
statements in the body get the values they are meant to get.

* `claimArguments_eq_ok`: the arguments of a method.
* `frame`, `CallArg.resolve?`: what identifiers and arguments stand for in a call.
* `Method.statement?_ofCompiled`: the statement that a call for an action sends.
* `Method.routine?_ofPlan`: the routine that a call for a transaction runs.
-/

namespace Bindery

/-! ## Values of placeholders -/

/-- The values of a compiled action: those that wrappers fix, and those given for
    the other parameters. -/
def Compiled.values (c : Compiled) (given : String → Value) : List Value :=
  c.params.map fun b => (c.fixedValue? b.name).getD (given b.name)

/-- A parameter that no wrapper fixes is an argument. -/
theorem Compiled.mem_names_arguments {c : Compiled} {b : Binding} (member : b ∈ c.params)
    (free : c.fixedValue? b.name = none) : b.name ∈ c.arguments.map (·.name) := by
  cases found : c.params.find? (·.name == b.name) with
  | none => exact absurd (List.mem_map_of_mem member) (find?_name_eq_none_iff.1 found)
  | some first =>
    rw [← find?_distinctBindings] at found
    obtain ⟨known, name_eq⟩ := of_find?_name_eq_some found
    refine List.mem_map.2 ⟨first, List.mem_filter.2 ⟨known, ?_⟩, name_eq⟩
    rw [name_eq, free]
    rfl

end Bindery

namespace Bindery.Code

/-! ## Claimed arguments -/

/-- The arguments are those claimed before and one for each parameter, and their
    identifiers differ. -/
theorem claimFrom_eq_ok {handle : String} {earlier args : List Argument} {params : List Variable}
    (h : claimFrom handle earlier params = .ok args) (distinct : (earlier.map (·.ident)).Nodup) :
    args.map (fun a => Variable.mk a.source a.type) =
        earlier.map (fun a => ⟨a.source, a.type⟩) ++ params ∧
      (args.map (·.ident)).Nodup := by
  induction params generalizing earlier with
  | nil =>
    cases h
    exact ⟨(List.append_nil _).symm, distinct⟩
  | cons v rest ih =>
    unfold claimFrom at h
    obtain ⟨ident, -, h₁⟩ := bind_eq_ok_iff.1 h
    split at h₁
    · cases h₁
    · next free =>
      have new : ident ∉ earlier.map (·.ident) := by
        unfold takenBy? at free
        split at free
        · cases free
        · exact find?_name_eq_none_iff.1 (Option.map_eq_none_iff.1 free)
      have differ : ((earlier ++ [Argument.mk v.name ident v.type]).map (·.ident)).Nodup := by
        rw [List.map_append, List.map_singleton, ← List.concat_eq_append]
        exact List.Nodup.concat new distinct
      obtain ⟨sources, idents⟩ := ih h₁ differ
      refine ⟨?_, idents⟩
      rw [sources, List.map_append, List.append_assoc]
      rfl

theorem claimArguments_eq_ok {handle : String} {params : List Variable} {args : List Argument}
    (h : claimArguments handle params = .ok args) :
    args.map (fun a => Variable.mk a.source a.type) = params ∧ (args.map (·.ident)).Nodup :=
  claimFrom_eq_ok h List.nodup_nil

/-! ## What identifiers stand for -/

/-- The identifiers of arguments with the values given for their parameters. -/
def frame (args : List Argument) (given : String → Value) : List (String × Value) :=
  args.map fun a => (a.ident, given a.source)

/-- What an argument of a call stands for in a frame. -/
def CallArg.resolve? (frame : List (String × Value)) : CallArg → Option RoutineArg
  | .literal v => some (.value v)
  | .var name => some (.var name)
  | .argument ident => (frame.lookup ident).map .value

theorem lookup_frame_of_mem {args : List Argument} (distinct : (args.map (·.ident)).Nodup)
    (given : String → Value) {a : Argument} (member : a ∈ args) :
    (frame args given).lookup a.ident = some (given a.source) := by
  induction args with
  | nil => cases member
  | cons first rest ih =>
    rw [List.map_cons, List.nodup_cons] at distinct
    unfold frame
    rw [List.map_cons, lookup_cons_eq_ite]
    rcases List.mem_cons.1 member with rfl | later
    · rw [if_pos rfl]
    · have other : a.ident ≠ first.ident := by
        intro same
        exact distinct.1 (same ▸ List.mem_map_of_mem later)
      rw [if_neg other]
      exact ih distinct.2 later

/-- The identifier of a parameter stands for the value given for it. -/
theorem resolve?_identifierOf {handle : String} {params : List Variable} {args : List Argument}
    (h : claimArguments handle params = .ok args) (given : String → Value) {name : String}
    (member : name ∈ params.map (·.name)) :
    (CallArg.argument (identifierOf args name)).resolve? (frame args given) =
      some (.value (given name)) := by
  obtain ⟨sources, distinct⟩ := claimArguments_eq_ok h
  have claimed : name ∈ args.map (·.source) := by
    rw [← sources, List.map_map] at member
    exact member
  unfold identifierOf CallArg.resolve?
  cases found : args.find? (·.source == name) with
  | none => exact absurd claimed (find?_name_eq_none_iff.1 found)
  | some a =>
    obtain ⟨known, source_eq⟩ := of_find?_name_eq_some found
    have held := lookup_frame_of_mem distinct given known
    rw [source_eq] at held
    exact congrArg (Option.map RoutineArg.value) held

/-! ## Methods of actions -/

/-- The statement that a call of a method sends, with what its arguments stand for;
    a method of a transaction has none of its own. -/
def Method.statement? (m : Method) (given : String → Value) :
    Option (String × List RoutineArg) :=
  match m.body with
  | .call _ sql args => do
    return (sql, ← args.mapM (CallArg.resolve? (frame m.arguments given)))
  | .transaction _ => none

theorem resolve?_callArg {c : Compiled} {handle : String} {args : List Argument}
    (h : claimArguments handle (c.arguments.map fun b => ⟨b.name, b.type⟩) = .ok args)
    (given : String → Value) {b : Binding} (member : b ∈ c.params) :
    (callArg c args b.name).resolve? (frame args given) =
      some (.value ((c.fixedValue? b.name).getD (given b.name))) := by
  unfold callArg
  cases free : c.fixedValue? b.name with
  | some value => rfl
  | none =>
    have claimed : b.name ∈ (c.arguments.map fun b => Variable.mk b.name b.type).map (·.name) := by
      rw [List.map_map]
      exact Compiled.mem_names_arguments member free
    exact resolve?_identifierOf h given claimed

/-- A call for an action sends its statement with its values. -/
theorem Method.statement?_ofCompiled {table ident : String} {c : Compiled} {m : Method}
    {record : Option RecordType} (h : Method.ofCompiled table ident c = .ok (m, record))
    (given : String → Value) :
    m.statement? given = some (c.sql, (c.values given).map .value) := by
  obtain ⟨args, claimed, h₁⟩ := bind_eq_ok_iff.1 h
  obtain ⟨name, -, h₂⟩ := bind_eq_ok_iff.1 h₁
  obtain ⟨⟨helper, returned, _⟩, -, h₃⟩ := bind_eq_ok_iff.1 h₂
  cases h₃
  have values : (c.params.map fun b => callArg c args b.name).mapM
      (CallArg.resolve? (frame args given)) = some ((c.values given).map .value) := by
    rw [List.mapM_map, Compiled.values, List.map_map]
    exact mapM_eq_some fun b member => resolve?_callArg claimed given member
  unfold statement?
  dsimp only
  rw [values]
  rfl

/-! ## Methods of transactions -/

/-- A step with what its arguments stand for. -/
def StepCall.routineStep? (frame : List (String × Value)) (s : StepCall) : Option RoutineStep := do
  let args ← s.args.mapM (CallArg.resolve? frame)
  return { action := s.action, sql := s.sql, kind := s.kind, args
           exports := s.exports.map fun e => ⟨e.source, e.var⟩ }

/-- The routine that a call of a method runs; a method of an action runs none. -/
def Method.routine? (m : Method) (given : String → Value) : Option Routine :=
  match m.body with
  | .call _ _ _ => none
  | .transaction steps => do
    return ⟨m.name, ← steps.mapM (StepCall.routineStep? (frame m.arguments given))⟩

theorem resolve?_stepArg {handle : String} {params : List Variable} {args : List Argument}
    (h : claimArguments handle params = .ok args) (given : String → Value)
    {source : ArgumentSource} (known : ∀ name, source = .caller name → name ∈ params.map (·.name)) :
    (stepArg args source).resolve? (frame args given) = some (source.resolve given) := by
  cases source with
  | literal value => rfl
  | var name => rfl
  | caller name => exact resolve?_identifierOf h given (known name rfl)

/-- A call for a transaction runs the routine of its plan, if the plan lists the
    arguments that its steps use. -/
theorem Method.routine?_ofPlan {ident : String} {p : Plan} {m : Method}
    (h : Method.ofPlan ident p = .ok m)
    (listed : ∀ s ∈ p.steps, ∀ name, .caller name ∈ s.args → name ∈ p.args.map (·.name))
    (given : String → Value) : m.routine? given = some (p.routine given) := by
  obtain ⟨args, claimed, h₁⟩ := bind_eq_ok_iff.1 h
  cases h₁
  have each : ∀ s ∈ p.steps, (StepCall.ofPlanned args s).routineStep? (frame args given) =
      some (s.routineStep given) := by
    intro s hs
    have resolved : (s.args.map (stepArg args)).mapM (CallArg.resolve? (frame args given)) =
        some (s.args.map (·.resolve given)) := by
      rw [List.mapM_map]
      refine mapM_eq_some fun source hsource => resolve?_stepArg claimed given ?_
      rintro name rfl
      exact listed s hs name hsource
    unfold StepCall.routineStep? StepCall.ofPlanned
    dsimp only
    rw [resolved]
    rfl
  have steps : (p.steps.map (StepCall.ofPlanned args)).mapM
      (StepCall.routineStep? (frame args given)) = some (p.steps.map (·.routineStep given)) := by
    rw [List.mapM_map]
    exact mapM_eq_some each
  unfold routine?
  dsimp only
  rw [steps]
  rfl

end Bindery.Code
