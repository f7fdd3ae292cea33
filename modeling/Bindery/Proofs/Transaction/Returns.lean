import Bindery.Code.TypeText
import Bindery.Proofs.Transaction.Simulation

/-!
# Variables that a transaction returns

After the commit the variables to return are taken one by one, and a variable is
gone once it is taken. Every one of them is exported, so a transaction misses one
if and only if its list names it again.

* `Variables.takeAll`: the variables to return, taken in order.
* `Transaction.takeAll_eq_missing_iff`: when a committed transaction misses a
  variable.
* `duplicateReturn_missing`: a planned transaction that commits and misses one.
-/

namespace Bindery

/-- Takes variables in order, each as its host type, up to the first error. -/
def Variables.takeAll (vs : Variables) :
    List Variable → Except AccessError (List ((t : HostType) × t.Carrier))
  | [] => .ok []
  | r :: rest =>
    match vs.take r.type.hostType r.name with
    | (.error e, _) => .error e
    | (.ok x, vs') => (vs'.takeAll rest).map (⟨_, x⟩ :: ·)

/-- The variable is held with a value that fits its type. -/
def Variables.Fits (vs : Variables) (r : Variable) : Prop :=
  ∃ v x, vs.entries.lookup r.name = some v ∧ r.type.hostType.decode? v = some x

theorem Variables.fits_erase_iff {vs : Variables} {name : String} {r : Variable} :
    (vs.erase name).Fits r ↔ r.name ≠ name ∧ vs.Fits r := by
  rw [Fits, Fits, lookup_erase]
  by_cases here : r.name = name
  · simp [here]
  · simp [here]

theorem Variables.mem_names_erase {vs : Variables} {name other : String} :
    other ∈ (vs.erase name).names ↔ other ≠ name ∧ other ∈ vs.names := by
  rw [names_erase, List.mem_filter]
  simp [and_comm]

/-- What becomes of the first variable that is taken. -/
theorem Variables.takeAll_cons (vs : Variables) (r : Variable) (rest : List Variable) :
    (r.name ∉ vs.names ∧ vs.takeAll (r :: rest) = .error (.missingVariable r.name)) ∨
    (r.name ∈ vs.names ∧ ¬ vs.Fits r ∧
      ∃ expected found, vs.takeAll (r :: rest) = .error (.variableDecode r.name expected found)) ∨
    (vs.Fits r ∧ ∃ x, vs.takeAll (r :: rest) = ((vs.erase r.name).takeAll rest).map (x :: ·)) := by
  rw [takeAll, take]
  cases hget : vs.get r.name with
  | error e =>
    obtain ⟨missing, rfl⟩ := get_eq_error_iff.1 hget
    refine .inl ⟨?_, rfl⟩
    rw [← lookup_isSome_iff, missing]
    rintro ⟨v, hv⟩
    cases hv
  | ok v =>
    have found := get_eq_ok_iff.1 hget
    dsimp only
    cases hdecode : r.type.hostType.decode? v with
    | none =>
      refine .inr (.inl ⟨lookup_isSome_iff.1 ⟨v, found⟩, ?_, _, _, rfl⟩)
      rintro ⟨v', x, found', hx⟩
      rw [found] at found'
      cases found'
      rw [hdecode] at hx
      cases hx
    | some x => exact .inr (.inr ⟨⟨v, x, found, hdecode⟩, ⟨_, x⟩, rfl⟩)

/-- Taking variables misses one that is not held or that was taken before, behind
    others that fit. -/
theorem Variables.takeAll_misses_iff {vs : Variables} {rs : List Variable} {name : String} :
    vs.takeAll rs = .error (.missingVariable name) ↔
      ∃ before r after, rs = before ++ r :: after ∧ r.name = name ∧
        (name ∉ vs.names ∨ name ∈ before.map (·.name)) ∧ (before.map (·.name)).Nodup ∧
        ∀ b ∈ before, vs.Fits b := by
  induction rs generalizing vs with
  | nil =>
    constructor
    · intro h
      cases h
    · rintro ⟨before, r, after, eq, -⟩
      simp at eq
  | cons r rest ih =>
    rcases vs.takeAll_cons r rest with
      ⟨missing, eq⟩ | ⟨held, unfit, expected, found, eq⟩ | ⟨fits, x, eq⟩
    · rw [eq, Except.error.injEq, AccessError.missingVariable.injEq]
      constructor
      · rintro rfl
        exact ⟨[], r, rest, rfl, rfl, .inl missing, by simp, by simp⟩
      · rintro ⟨before, r', after, cut, rfl, -, -, fit⟩
        cases before with
        | nil =>
          cases cut
          rfl
        | cons b before =>
          cases cut
          obtain ⟨v, x, hv, -⟩ := fit r (by simp)
          exact absurd (lookup_isSome_iff.1 ⟨v, hv⟩) missing
    · rw [eq, Except.error.injEq]
      constructor
      · intro h
        cases h
      · rintro ⟨before, r', after, cut, rfl, gone, -, fit⟩
        cases before with
        | nil =>
          cases cut
          rcases gone with gone | gone
          · exact absurd held gone
          · cases gone
        | cons b before =>
          cases cut
          exact absurd (fit r (by simp)) unfit
    · rw [eq, map_eq_error_iff, ih]
      constructor
      · rintro ⟨before, r', after, rfl, rfl, gone, distinct, fit⟩
        have apart : ∀ b ∈ before, b.name ≠ r.name ∧ vs.Fits b := fun b hb =>
          fits_erase_iff.1 (fit b hb)
        refine ⟨r :: before, r', after, rfl, rfl, ?_, ?_, ?_⟩
        · rw [mem_names_erase] at gone
          rw [List.map_cons, List.mem_cons]
          by_cases here : r'.name = r.name
          · exact .inr (.inl here)
          · rcases gone with gone | gone
            · exact .inl fun held => gone ⟨here, held⟩
            · exact .inr (.inr gone)
        · rw [List.map_cons, List.nodup_cons, List.mem_map]
          refine ⟨?_, distinct⟩
          rintro ⟨b, hb, same⟩
          exact (apart b hb).1 same
        · rw [List.forall_mem_cons]
          exact ⟨fits, fun b hb => (apart b hb).2⟩
      · rintro ⟨before, r', after, cut, rfl, gone, distinct, fit⟩
        cases before with
        | nil =>
          cases cut
          obtain ⟨v, x, found, -⟩ := fits
          rcases gone with gone | gone
          · exact absurd (lookup_isSome_iff.1 ⟨v, found⟩) gone
          · cases gone
        | cons b before =>
          cases cut
          rw [List.map_cons, List.nodup_cons] at distinct
          refine ⟨before, r', after, rfl, rfl, ?_, distinct.2, ?_⟩
          · rw [mem_names_erase]
            rcases gone with gone | gone
            · exact .inl fun held => gone held.2
            · rcases List.mem_cons.1 gone with same | gone
              · exact .inl fun held => held.1 same
              · exact .inr gone
          · intro b hb
            refine fits_erase_iff.2 ⟨?_, fit b (by simp [hb])⟩
            intro same
            exact distinct.1 (same ▸ List.mem_map_of_mem hb)

/-! ## Committed transactions -/

theorem Routine.runSteps_of_run_eq_ok {σ : Type} {db : Database σ} {r : Routine} {s s' : σ}
    {vars : Variables} (run : r.run db s = (.ok vars, s')) :
    ∃ s₁ s₂, db.begin s = (.ok (), s₁) ∧ runSteps db.toHandle {} r.steps s₁ = (.ok vars, s₂) := by
  rcases begun : db.begin s with ⟨e | ⟨⟨⟩⟩, s₁⟩
  · rw [Routine.run, begun] at run
    cases run
  · rw [Routine.run_of_begin r begun] at run
    split at run
    · cases run
    · next vars' s₂ ran =>
      obtain ⟨_, -, rfl⟩ := map_eq_ok_iff.1 (Prod.mk.inj run).1
      exact ⟨s₁, s₂, rfl, ran⟩

/-- A committed transaction holds every variable that it returns. -/
theorem Transaction.mem_names_of_returns {σ : Type} {o : Options} {t : Transaction} {p : Plan}
    (plan : t.plan o = .ok p) {caller : String → Value} {db : Database σ} {s s' : σ}
    {vars : Variables} (run : (p.routine caller).run db s = (.ok vars, s')) :
    ∀ r ∈ p.returns, r.name ∈ vars.names := by
  obtain ⟨s₁, s₂, -, ran⟩ := Routine.runSteps_of_run_eq_ok run
  obtain ⟨passed, steps, passes⟩ := runSteps_eq_ok_iff.1 ran
  obtain ⟨table, planned, returns, -⟩ := Transaction.plan_eq_ok plan
  rw [Plan.steps_routine, ← List.append_nil (passed.map _)] at steps
  obtain ⟨mid, ahead, rest, none, agree⟩ := planned.simulates rfl passes steps
  rw [eq_comm, List.map_eq_nil_iff] at none
  subst none
  have mid_eq : mid = table := by
    generalize t.steps.drop passed.length = ahead_steps at rest
    cases rest
    rfl
  intro r hr
  rw [agree, mid_eq]
  exact List.mem_map_of_mem (returns r hr)

/-- A committed transaction misses a variable if and only if its list of returns
    names it again behind variables that differ and fit their types. So it misses
    none if it names each variable once. -/
theorem Transaction.takeAll_eq_missing_iff {σ : Type} {o : Options} {t : Transaction} {p : Plan}
    (plan : t.plan o = .ok p) {caller : String → Value} {db : Database σ} {s s' : σ}
    {vars : Variables} (run : (p.routine caller).run db s = (.ok vars, s')) :
    (∀ name, vars.takeAll p.returns = .error (.missingVariable name) ↔
      ∃ before r after, p.returns = before ++ r :: after ∧ r.name = name ∧
        name ∈ before.map (·.name) ∧ (before.map (·.name)).Nodup ∧ ∀ b ∈ before, vars.Fits b) ∧
    (t.returns.Nodup → ∀ name, vars.takeAll p.returns ≠ .error (.missingVariable name)) := by
  have held := Transaction.mem_names_of_returns plan run
  have missing_iff : ∀ name, vars.takeAll p.returns = .error (.missingVariable name) ↔
      ∃ before r after, p.returns = before ++ r :: after ∧ r.name = name ∧
        name ∈ before.map (·.name) ∧ (before.map (·.name)).Nodup ∧ ∀ b ∈ before, vars.Fits b := by
    intro name
    rw [Variables.takeAll_misses_iff]
    constructor
    · rintro ⟨before, r, after, cut, rfl, gone, distinct, fit⟩
      have r_held : r.name ∈ vars.names := held r (by simp [cut])
      exact ⟨before, r, after, cut, rfl, gone.resolve_left (not_not.2 r_held), distinct, fit⟩
    · rintro ⟨before, r, after, cut, rfl, again, distinct, fit⟩
      exact ⟨before, r, after, cut, rfl, .inr again, distinct, fit⟩
  refine ⟨missing_iff, ?_⟩
  intro distinct name missing
  obtain ⟨before, r, after, cut, rfl, again, -⟩ := (missing_iff name).1 missing
  obtain ⟨-, -, -, names_eq⟩ := Transaction.plan_eq_ok plan
  rw [← names_eq, cut, List.map_append, List.nodup_append] at distinct
  exact distinct.2.2 r.name again r.name (by simp) rfl

/-! ## A list that names a variable again -/

/-- Notes under a generated key. -/
def notes : Table where
  name := "notes"
  databaseName := none
  columns := [.primaryKey "id", .ofScalar "text" .text]
  distinct := by decide
  finite := by decide

/-- A new note. -/
def insertNote : Action :=
  .perform "insertNote" notes
    (.insert { assignments := [⟨"text", .param ⟨"text", { scalar := .text }⟩⟩] })

/-- Inserts a note and returns the given variables. -/
def createNote (returns : List String) : Transaction where
  name := "createNote"
  table := notes
  steps := [{ action := insertNote, exports := [⟨.insertId, "id"⟩] }]
  returns

/-- One row with the key seven. -/
def inserted : List Reply := [.exec ⟨1, some 7⟩]

/-- A transaction that returns its key once gives it to the caller. -/
theorem createNote_returns :
    ∃ p vars s', (createNote ["id"]).plan {} = .ok p ∧
      (p.routine fun _ => .text "hello").run (Script.database {}) inserted = (.ok vars, s') ∧
      (createNote ["id"]).returns.Nodup ∧
      ∀ name, vars.takeAll p.returns ≠ .error (.missingVariable name) := by
  have ran : ∃ p vars s', (createNote ["id"]).plan {} = .ok p ∧
      (p.routine fun _ => .text "hello").run (Script.database {}) inserted = (.ok vars, s') :=
    ⟨_, _, _, rfl, rfl⟩
  obtain ⟨p, vars, s', plan, run⟩ := ran
  have distinct : (createNote ["id"]).returns.Nodup := by decide
  exact ⟨p, vars, s', plan, run, distinct,
    (Transaction.takeAll_eq_missing_iff plan run).2 distinct⟩

/-- A transaction that returns its key twice is planned and commits, and misses
    the key although a step has set it. -/
theorem duplicateReturn_missing :
    ∃ p vars s', (createNote ["id", "id"]).plan {} = .ok p ∧
      (p.routine fun _ => .text "hello").run (Script.database {}) inserted = (.ok vars, s') ∧
      vars.entries.lookup "id" = some (.int 7) ∧
      vars.takeAll p.returns = .error (.missingVariable "id") :=
  ⟨_, _, _, rfl, rfl, rfl, rfl⟩

end Bindery
