import Bindery.Proofs.Schema.Creation
import Bindery.Proofs.Statement.Acceptance
import Bindery.Proofs.Statement.Assignments

/-!
# Columns under their names in the database

The columns of a table have different names in the model, but two of them may have one
name in the database. A statement that sets both then writes this name twice, and so
does the creation of the table. Every table has an insert and an update that set all of
its columns, so only tables whose columns have different names in the database as well
are safe.

* `Table.DistinctInDatabase`: no two columns have one name in the database.
* `Table.compile_insertAll`, `Table.compile_updateAll`: the writes of all columns compile.
* `Dialect.columnName?`: the name that a line of a creation begins with.
* `Table.distinctInDatabase_iff`: inserts, updates and creations write each name once
  exactly for such tables.
-/

namespace Bindery

/-- The columns of the table have different names in the database. -/
def Table.DistinctInDatabase (t : Table) : Prop := (t.columns.map (·.sqlName)).Nodup

theorem Table.distinctInDatabase_of_isGhost {t : Table} (ghost : t.isGhost = true) :
    t.DistinctInDatabase := by
  unfold DistinctInDatabase
  rw [List.isEmpty_iff.1 ghost]
  exact List.nodup_nil

/-! ## Writes of all columns -/

/-- The column set to a parameter of its own name. -/
def Column.assignment (c : Column) : Assignment := ⟨c.name, .param (.ofColumn c)⟩

/-- The column with a parameter of its own name. -/
def Column.target (c : Column) : Target := ⟨c, .param (.ofColumn c)⟩

/-- The insert that sets all columns. -/
def Table.insertAll (t : Table) : Insert := { assignments := t.columns.map Column.assignment }

/-- The update that sets all columns in all rows. -/
def Table.updateAll (t : Table) : Update :=
  { assignments := t.columns.map Column.assignment, unrestricted := true }

variable {t : Table} {as : List Assignment} {fill : Bool} {skip : Column → Bool}
  {ts ts' : List Target} {o : Options}

theorem Table.Sets.unique (h : t.Sets as fill skip ts) (h' : t.Sets as fill skip ts') : ts = ts' :=
  Except.ok.inj ((targets_eq_ok_iff.2 h).symm.trans (targets_eq_ok_iff.2 h'))

theorem Table.sets_all (full : t.isGhost = false) :
    t.Sets (t.columns.map Column.assignment) false skip (t.columns.map Column.target) := by
  refine ⟨⟨_, ?_, (List.append_nil _).symm⟩, ?_, ?_⟩
  · rw [List.forall₂_map_left_iff, List.forall₂_map_right_iff, List.forall₂_same]
    exact fun c member => ⟨member, rfl, rfl⟩
  · unfold targetNames
    rw [List.map_map]
    exact t.distinct
  · rw [ne_eq, List.map_eq_nil_iff, ← List.isEmpty_iff]
    exact Bool.eq_false_iff.1 full

/-- Parameters of different names agree. -/
theorem Agree.of_nodup {bs : List Binding} (h : (bs.map (·.name)).Nodup) : Agree bs :=
  fun _ hb _ hb' same => congrArg Binding.type (List.inj_on_of_nodup_map h hb hb' same)

/-- A write compiles if it succeeds with parameters of different names and leaves no
    column to its default. -/
theorem settleTargets_of_succeeds {draft : Draft (List Target)} (succeeds : draft.Succeeds)
    (assigned : ∀ ts ps, draft.Yields ts ps →
      ((slots ps).map (·.name)).Nodup ∧ ∀ x ∈ ts, x.value ≠ .default) :
    ∃ s, settleTargets draft = .ok s := by
  obtain ⟨ts, ps, written⟩ := succeeds
  obtain ⟨distinct, given⟩ := assigned ts ps written
  have settles : draft.settle = .ok (ts, ⟨ps⟩) :=
    Draft.settle_eq_ok_iff_yields.2 ⟨conflict?_eq_none_iff.2 (Agree.of_nodup distinct), written⟩
  refine ⟨⟨ps⟩, bind_eq_ok_iff.2 ⟨_, settles, ?_⟩⟩
  have unshadowed : shadowedDefault? ((Statement.mk ps).bindings.map (·.name)) ts = none :=
    shadowedDefault?_eq_none_iff.2 fun x member value => absurd value (given x member)
  dsimp only
  rw [unshadowed]

theorem assignmentOccurrences_all (columns : List Column) :
    assignmentOccurrences (columns.map Column.assignment) =
      columns.map fun c => (Param.ofColumn c).bind .assignment := by
  rw [assignmentOccurrences, List.flatMap_map, List.map_eq_flatMap]
  rfl

theorem Table.nodup_occurrences_all (t : Table) :
    ((assignmentOccurrences (t.columns.map Column.assignment)).map (·.name)).Nodup := by
  rw [assignmentOccurrences_all, List.map_map]
  exact t.distinct

theorem Table.Sets.given (full : t.isGhost = false)
    (h : t.Sets (t.columns.map Column.assignment) false skip ts) :
    ∀ x ∈ ts, x.value ≠ .default := by
  rw [h.unique (t.sets_all full), List.forall_mem_map]
  rintro c - ⟨⟩

theorem Column.succeeds_writeValue (c : Column) (s : Scope) : (c.target.writeValue s).Succeeds :=
  Draft.succeeds_write

theorem Column.succeeds_writeAssignment {c : Column} (member : c ∈ t.columns) :
    (c.target.writeAssignment t.alone).Succeeds := by
  have known : t.alone.Knows (.ofMain c.name) :=
    ⟨c, bind_eq_ok_iff.2 ⟨_, rfl, Table.column_eq_ok_iff.2 ⟨member, rfl⟩⟩⟩
  unfold Target.writeAssignment
  rw [Draft.succeeds_bind_unit, Draft.succeeds_bind_unit]
  exact ⟨Scope.succeeds_writeColumn.2 known, Draft.succeeds_write, c.succeeds_writeValue _⟩

theorem Table.succeeds_insertAll (full : t.isGhost = false) : (t.insertAll.write t).Succeeds := by
  unfold Insert.write
  rw [Draft.succeeds_lift_bind]
  refine ⟨t.alone, Table.resolve_eq_ok_iff.2 ⟨full, rfl⟩, ?_⟩
  rw [Draft.succeeds_lift_bind]
  refine ⟨_, targets_eq_ok_iff.2 (t.sets_all full), ?_⟩
  simp [Draft.succeeds_separated, Column.succeeds_writeValue]

theorem Table.succeeds_updateAll (full : t.isGhost = false) : (t.updateAll.write t).Succeeds := by
  unfold Update.write
  rw [Draft.succeeds_lift_bind]
  refine ⟨(), rfl, ?_⟩
  rw [Draft.succeeds_lift_bind]
  refine ⟨t.alone, Table.resolve_eq_ok_iff.2 ⟨full, rfl⟩, ?_⟩
  rw [Draft.succeeds_lift_bind]
  refine ⟨_, targets_eq_ok_iff.2 (t.sets_all full), ?_⟩
  have filter : (t.updateAll.filter.write t.alone).Succeeds := Draft.succeeds_pure
  have each : ∀ c ∈ t.columns, (c.target.writeAssignment t.alone).Succeeds :=
    fun c member => Column.succeeds_writeAssignment member
  simpa [Draft.succeeds_separated, filter] using each

/-- A write compiles if its targets settle. -/
theorem Action.compile_of_settles {task : Task} {kind : ActionKind} {draft : Draft (List Target)}
    (writes : task.prepare o.naming t = settleTargets draft >>= fun s => pure (kind, s, none))
    (settles : ∃ s, settleTargets draft = .ok s) (name : String) :
    ∃ c, (Action.perform name t task).compile o = .ok c := by
  obtain ⟨s, hs⟩ := settles
  have prepared : task.prepare o.naming t = .ok (kind, s, none) :=
    writes.trans (bind_eq_ok_iff.2 ⟨s, hs, rfl⟩)
  exact ⟨_, Action.compile_eq_ok_iff.2 ⟨_, bind_eq_ok_iff.2 ⟨_, prepared, rfl⟩, rfl⟩⟩

theorem Table.compile_insertAll (full : t.isGhost = false) (o : Options) (name : String) :
    ∃ c, (Action.perform name t (.insert t.insertAll)).compile o = .ok c := by
  have settles : ∃ s, t.insertAll.settle t = .ok s := by
    refine settleTargets_of_succeeds (t.succeeds_insertAll full) fun ts ps written => ?_
    obtain ⟨-, -, -, -, htargets, -⟩ := Insert.yields_write written
    rw [Insert.slots_write written]
    exact ⟨t.nodup_occurrences_all, (targets_eq_ok_iff.1 htargets).given full⟩
  exact Action.compile_of_settles rfl settles name

theorem Table.compile_updateAll (full : t.isGhost = false) (o : Options) (name : String) :
    ∃ c, (Action.perform name t (.update t.updateAll)).compile o = .ok c := by
  have settles : ∃ s, t.updateAll.settle t = .ok s := by
    refine settleTargets_of_succeeds (t.succeeds_updateAll full) fun ts ps written => ?_
    obtain ⟨-, -, -, -, -, htargets, -⟩ := Update.yields_write written
    have none : t.updateAll.filter.occurrences = [] := rfl
    rw [Update.slots_write written, none, List.append_nil]
    exact ⟨t.nodup_occurrences_all, (targets_eq_ok_iff.1 htargets).given full⟩
  exact Action.compile_of_settles rfl settles name

/-! ## Columns that are set -/

/-- No column is set twice, so its name in the database is only written twice if another
    column has it as well. -/
theorem Table.DistinctInDatabase.nodup_sqlName (h : t.DistinctInDatabase)
    (sets : t.Sets as fill skip ts) : (ts.map (·.column.sqlName)).Nodup := by
  have names := sets.distinct
  unfold targetNames List.Nodup at names
  unfold List.Nodup
  rw [List.pairwise_map] at names ⊢
  exact names.imp_of_mem fun hx hy apart same => apart <| congrArg Column.name <|
    List.inj_on_of_nodup_map h (sets.mem_columns _ hx) (sets.mem_columns _ hy) same

theorem Table.distinctInDatabase_of_sets (full : t.isGhost = false)
    (sets : t.Sets (t.columns.map Column.assignment) false skip ts)
    (h : (ts.map (·.column.sqlName)).Nodup) : t.DistinctInDatabase := by
  rw [sets.unique (t.sets_all full), List.map_map] at h
  exact h

/-! ## Lines of a creation -/

/-- The name that a line of a creation begins with. -/
def Dialect.columnName? (d : Dialect) (line : String) : Option String :=
  match line.toList with
  | [] => none
  | c :: rest =>
    if c = d.quoteChar then (Token.readQuoted c rest).map fun p => String.ofList p.1 else none

variable {d : Dialect}

theorem Dialect.columnName?_line (c : Column) : d.columnName? (c.line d) = some c.sqlName := by
  obtain ⟨rest, line_eq⟩ := c.line_eq d
  have breaks : Token.Breaks (" ".toList ++ rest.toList) := by simp [Token.Breaks, Token.breaks]
  have apart := breaks.head?_ne (Token.quoteChar_not_mem_breaks d)
  unfold columnName?
  rw [line_eq, String.append_assoc, String.toList_append, String.toList_append]
  unfold Dialect.quote
  rw [toList_quoted_append]
  dsimp only
  rw [if_pos rfl, readQuoted_double _ apart]
  simp

theorem Dialect.columnName?_eq_none {line : String} {c : Char} (first : line.toList.head? = some c)
    (other : c ≠ d.quoteChar) : d.columnName? line = none := by
  obtain ⟨rest, line_eq⟩ := List.head?_eq_some_iff.1 first
  unfold columnName?
  rw [line_eq]
  exact if_neg other

/-- The lines that begin with a name are those of the columns. -/
theorem Creation.filterMap_columnName? (k : Creation) :
    (k.lines d).filterMap d.columnName? = k.columns.map (·.sqlName) := by
  have columns : (k.columns.map (Column.line d)).filterMap d.columnName? =
      k.columns.map (·.sqlName) := by
    rw [List.filterMap_map, ← List.filterMap_eq_map]
    exact List.filterMap_congr fun c _ => Dialect.columnName?_line c
  have primary : (primaryKeyLine d k.primaryKey).filterMap d.columnName? = [] := by
    rw [List.filterMap_eq_nil_iff]
    exact fun line member =>
      Dialect.columnName?_eq_none (head?_of_mem_primaryKeyLine member) d.quoteChar_ne.2.symm
  have foreign : (k.foreignKeys.map (ForeignKeyLine.line d)).filterMap d.columnName? = [] := by
    rw [List.filterMap_eq_nil_iff, List.forall_mem_map]
    exact fun f _ => Dialect.columnName?_eq_none (f.head?_line d) d.quoteChar_ne.1.symm
  unfold lines
  rw [List.filterMap_append, List.filterMap_append, columns, primary, foreign, List.append_nil,
    List.append_nil]

theorem Table.creation_columns {r : Registry} {k : Creation} (h : t.creation r = .ok k) :
    k.table = t.sqlName ∧ k.columns = t.columns := by
  unfold creation at h
  split at h
  · cases h
  · obtain ⟨lines, -, made⟩ := bind_eq_ok_iff.1 h
    cases made
    exact ⟨rfl, rfl⟩

/-- The statements on a table write no name of a column twice if and only if its columns
    have different names in the database: each insert that compiles, each update that
    compiles, and the creation of the table, in its column lines. -/
theorem Table.distinctInDatabase_iff (t : Table) (o : Options) (r : Registry) :
    (t.DistinctInDatabase ↔ ∀ a c name i, Action.compile o a = .ok c →
      a.core = .perform name t (.insert i) →
        ∃ sets, c.Inserts o.dialect t i sets ∧ (databaseNames sets).Nodup) ∧
    (t.DistinctInDatabase ↔ ∀ a c name u, Action.compile o a = .ok c →
      a.core = .perform name t (.update u) →
        ∃ sets, c.Updates o.dialect t u sets ∧ (databaseNames sets).Nodup) ∧
    ∀ sql, t.createSql r o.dialect = .ok sql → ∃ k, t.creation r = .ok k ∧
      sql = "CREATE TABLE " ++ o.dialect.quote t.sqlName ++ " (\n    " ++
        String.intercalate ",\n    " (k.lines o.dialect) ++ "\n)" ∧
      (t.DistinctInDatabase ↔ ((k.lines o.dialect).filterMap o.dialect.columnName?).Nodup) := by
  have names_eq : ∀ sets : List Setting,
      databaseNames sets = (sets.map (·.1)).map (·.column.sqlName) := by
    intro sets
    rw [List.map_map]
    rfl
  refine ⟨⟨?inserted, ?insert⟩, ⟨?updated, ?update⟩, ?created⟩
  case inserted =>
    intro distinct a c name i h core
    obtain ⟨sets, inserts⟩ := Action.inserts_of_compile h core
    exact ⟨sets, inserts, names_eq sets ▸ distinct.nodup_sqlName inserts.columns⟩
  case insert =>
    intro each
    cases ghost : t.isGhost with
    | true => exact distinctInDatabase_of_isGhost ghost
    | false =>
      obtain ⟨c, h⟩ := t.compile_insertAll ghost o t.name
      obtain ⟨sets, inserts, nodup⟩ := each _ c _ _ h rfl
      exact distinctInDatabase_of_sets ghost inserts.columns (names_eq sets ▸ nodup)
  case updated =>
    intro distinct a c name u h core
    obtain ⟨sets, updates⟩ := Action.updates_of_compile h core
    exact ⟨sets, updates, names_eq sets ▸ distinct.nodup_sqlName updates.columns⟩
  case update =>
    intro each
    cases ghost : t.isGhost with
    | true => exact distinctInDatabase_of_isGhost ghost
    | false =>
      obtain ⟨c, h⟩ := t.compile_updateAll ghost o t.name
      obtain ⟨sets, updates, nodup⟩ := each _ c _ _ h rfl
      exact distinctInDatabase_of_sets ghost updates.columns (names_eq sets ▸ nodup)
  case created =>
    intro sql h
    obtain ⟨k, made, rfl⟩ := map_eq_ok_iff.1 h
    obtain ⟨table, columns⟩ := Table.creation_columns made
    refine ⟨k, made, by rw [← table]; rfl, ?_⟩
    rw [k.filterMap_columnName?, columns]
    rfl

/-- The statements on a crew name each of its columns once. -/
theorem crew_distinctInDatabase :
    crew.DistinctInDatabase ∧
    (∀ a c name i, Action.compile {} a = .ok c → a.core = .perform name crew (.insert i) →
      ∃ sets, c.Inserts .mysql crew i sets ∧ (databaseNames sets).Nodup) ∧
    ∃ sql k, crew.createSql .empty .mysql = .ok sql ∧ crew.creation .empty = .ok k ∧
      sql = "CREATE TABLE " ++ Dialect.mysql.quote "crew" ++ " (\n    " ++
        String.intercalate ",\n    " (k.lines .mysql) ++ "\n)" ∧
      ((k.lines .mysql).filterMap Dialect.mysql.columnName?).Nodup := by
  have distinct : crew.DistinctInDatabase := by
    unfold Table.DistinctInDatabase
    decide
  obtain ⟨inserted, -, created⟩ := crew.distinctInDatabase_iff {} .empty
  obtain ⟨sql, made⟩ : ∃ sql, crew.createSql .empty .mysql = .ok sql := ⟨_, rfl⟩
  obtain ⟨k, hk, sql_eq, nodup_iff⟩ := created sql made
  exact ⟨distinct, inserted.1 distinct, sql, k, made, hk, sql_eq, nodup_iff.1 distinct⟩

/-- Labels whose two columns have one name in the database. -/
def labels : Table where
  name := "labels"
  databaseName := none
  columns := [(Column.ofScalar "front" .text).withDatabaseName "side",
    (Column.ofScalar "back" .text).withDatabaseName "side"]
  distinct := by decide
  finite := by decide

/-- The table is accepted and its statements name a column twice. -/
theorem labels_repeat :
    labels.spec.build = .ok labels ∧
    (∃ c sets, (Action.perform "add" labels (.insert labels.insertAll)).compile {} = .ok c ∧
      c.sql = "INSERT INTO \x60labels\x60 (\x60side\x60, \x60side\x60) VALUES (?, ?)" ∧
      c.Inserts .mysql labels labels.insertAll sets ∧ databaseNames sets = ["side", "side"]) ∧
    (∃ c sets, (Action.perform "turn" labels (.update labels.updateAll)).compile {} = .ok c ∧
      c.sql = "UPDATE \x60labels\x60 SET \x60side\x60 = ?, \x60side\x60 = ?" ∧
      c.Updates .mysql labels labels.updateAll sets ∧ databaseNames sets = ["side", "side"]) ∧
    labels.createSql .empty .mysql =
      .ok "CREATE TABLE \x60labels\x60 (\n    \x60side\x60 TEXT NOT NULL,\n    \x60side\x60 TEXT NOT NULL\n)" := by
  have full : labels.isGhost = false := rfl
  have names : ∀ sets : List Setting, sets.map (·.1) = labels.columns.map Column.target →
      databaseNames sets = ["side", "side"] := by
    intro sets columns
    have mapped := congrArg (List.map (·.column.sqlName)) columns
    rw [List.map_map, List.map_map] at mapped
    exact mapped
  refine ⟨rfl, ?_, ?_, by rfl⟩
  · obtain ⟨c, h⟩ := labels.compile_insertAll full {} "add"
    obtain ⟨sets, inserts⟩ := Action.inserts_of_compile h rfl
    have columns := inserts.columns.unique (labels.sets_all full)
    refine ⟨c, sets, h, ?_, inserts, names sets columns⟩
    cases h
    rfl
  · obtain ⟨c, h⟩ := labels.compile_updateAll full {} "turn"
    obtain ⟨sets, updates⟩ := Action.updates_of_compile h rfl
    have columns := updates.columns.unique (labels.sets_all full)
    refine ⟨c, sets, h, ?_, updates, names sets columns⟩
    cases h
    rfl

end Bindery
