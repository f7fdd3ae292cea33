import Bindery.Proofs.Action.Wrapper
import Bindery.Proofs.Statement.Branches

/-!
# Columns that are set

An insert or an update sets the columns that it assigns, in the order of the
assignments, and behind them, if it is asked to, the other columns of its table to
their defaults. The text has every column together with its own value, and no
parameter goes by the name of a column that gets its default.

* `Table.Sets`: the columns that are set, read off the definition.
* `targets_eq_ok_iff`: these are the targets of a write, and they decide whether it
  has any.
* `Target.valueSql?`: the SQL of the value of a column.
* `Compiled.Inserts`, `Compiled.Updates`: what is compiled for the columns.
* `Action.sets_compile`: every insert and every update is of this form.
-/

namespace Bindery

/-! ## Columns of a definition -/

/-- The target is the column of the assignment, with the value it is assigned. -/
structure Table.Assigns (t : Table) (a : Assignment) (x : Target) : Prop where
  member : x.column ∈ t.columns
  name : x.column.name = a.column
  value : x.value = a.value

/-- The columns that get their defaults, if these are filled in. -/
def Table.filledIn (t : Table) (as : List Assignment) (fill : Bool) (skip : Column → Bool) :
    List Target :=
  if fill then (t.unassigned as skip).map (Target.mk · .default) else []

/-- The names of columns that are set. -/
def targetNames (ts : List Target) : List String := ts.map (·.column.name)

/-- The columns that are set: those assigned, in the order of the assignments, and then,
    if defaults are filled in, the other columns in the order of the table. No column is
    set twice, and at least one is set. -/
structure Table.Sets (t : Table) (as : List Assignment) (fill : Bool) (skip : Column → Bool)
    (ts : List Target) : Prop where
  parts : ∃ assigned, List.Forall₂ t.Assigns as assigned ∧ ts = assigned ++ t.filledIn as fill skip
  distinct : (targetNames ts).Nodup
  nonempty : ts ≠ []

variable {t : Table} {as : List Assignment} {fill : Bool} {skip : Column → Bool}

theorem targetNames_append (xs ys : List Target) :
    targetNames (xs ++ ys) = targetNames xs ++ targetNames ys := List.map_append

theorem nodup_targetNames_concat {xs : List Target} {x : Target} :
    (targetNames (xs ++ [x])).Nodup ↔
      (targetNames xs).Nodup ∧ ¬ xs.any (·.column.name == x.column.name) = true := by
  rw [targetNames_append, List.nodup_append, List.any_eq_true]
  simp [targetNames]

/-- Assignments are accepted if they name columns of the table, each of them once. -/
theorem assignedTargets_eq_ok_iff {earlier ts : List Target}
    (distinct : (targetNames earlier).Nodup) :
    assignedTargets t earlier as = .ok ts ↔
      ∃ added, List.Forall₂ t.Assigns as added ∧ ts = earlier ++ added ∧
        (targetNames ts).Nodup := by
  induction as generalizing earlier with
  | nil =>
    rw [assignedTargets, Except.ok.injEq]
    constructor
    · rintro rfl
      exact ⟨[], .nil, by simp, distinct⟩
    · rintro ⟨_, ⟨⟩, rfl, -⟩
      simp
  | cons a rest ih =>
    rw [assignedTargets, bind_eq_ok_iff]
    simp only [Table.column_eq_ok_iff, List.forall₂_cons_left_iff]
    constructor
    · rintro ⟨column, ⟨member, name⟩, h⟩
      split at h
      · cases h
      · next fresh =>
        have apart : (targetNames (earlier ++ [⟨column, a.value⟩])).Nodup :=
          nodup_targetNames_concat.2 ⟨distinct, fresh⟩
        obtain ⟨added, each, rfl, all⟩ := (ih apart).1 h
        exact ⟨_, ⟨⟨column, a.value⟩, added, ⟨member, name, rfl⟩, each, rfl⟩, by simp, all⟩
    · rintro ⟨_, ⟨⟨column, _⟩, added, ⟨member, name, rfl⟩, each, rfl⟩, rfl, all⟩
      have apart : (targetNames (earlier ++ [⟨column, a.value⟩])).Nodup := by
        rw [List.append_cons, targetNames_append] at all
        exact (List.nodup_append.1 all).1
      refine ⟨column, ⟨member, name⟩, ?_⟩
      rw [if_neg (nodup_targetNames_concat.1 apart).2]
      exact (ih apart).2 ⟨added, each, by simp, all⟩

theorem Table.names_of_assigns {assigned : List Target}
    (h : List.Forall₂ t.Assigns as assigned) : targetNames assigned = as.map (·.column) := by
  induction h with
  | nil => rfl
  | cons first _ ih =>
    unfold targetNames at ih ⊢
    rw [List.map_cons, List.map_cons, first.name, ih]

/-- What is set in all, if the given columns are assigned. -/
theorem Table.append_filledIn {assigned : List Target} (h : List.Forall₂ t.Assigns as assigned)
    (fill : Bool) (skip : Column → Bool) :
    (if fill then assigned ++ defaultTargets t assigned skip else assigned) =
      assigned ++ t.filledIn as fill skip := by
  unfold filledIn
  rw [defaultTargets_eq (names_of_assigns h)]
  cases fill <;> simp

/-- Columns that get their defaults are not among those that are assigned. -/
theorem Table.nodup_names_filledIn {assigned : List Target}
    (h : List.Forall₂ t.Assigns as assigned) (distinct : (targetNames assigned).Nodup) :
    (targetNames (assigned ++ t.filledIn as fill skip)).Nodup := by
  cases fill with
  | false => simpa [Table.filledIn] using distinct
  | true =>
    have others : targetNames (t.filledIn as true skip) = (t.unassigned as skip).map (·.name) := by
      simp [targetNames, Table.filledIn]
    rw [targetNames_append, List.nodup_append, others]
    refine ⟨distinct, t.distinct.sublist (List.filter_sublist.map _), ?_⟩
    rintro _ taken _ free rfl
    obtain ⟨c, member, same⟩ := List.mem_map.1 free
    have apart := (List.mem_filter.1 member).2
    rw [Bool.and_eq_true, decide_eq_true_iff] at apart
    rw [names_of_assigns h, ← same] at taken
    exact apart.2 taken

/-- A write has targets if its assignments name columns of the table, each of them once,
    and something is left to set. -/
theorem targets_eq_ok_iff {ts : List Target} :
    targets t as fill skip = .ok ts ↔ t.Sets as fill skip ts := by
  have start : (targetNames []).Nodup := List.nodup_nil
  have settled : ∀ all : List Target,
      (if all.isEmpty then .error .noAssignments else .ok all : Except Fault _) = .ok ts ↔
        ts = all ∧ ts ≠ [] := by
    intro all
    cases all with
    | nil => simp
    | cons x rest =>
      simp only [List.isEmpty_cons, Bool.false_eq_true, ↓reduceIte, Except.ok.injEq]
      constructor
      · rintro rfl
        exact ⟨rfl, List.cons_ne_nil x rest⟩
      · rintro ⟨rfl, -⟩
        rfl
  rw [targets, bind_eq_ok_iff]
  constructor
  · rintro ⟨assigned, hassigned, h⟩
    obtain ⟨_, each, rfl, distinct⟩ := (assignedTargets_eq_ok_iff start).1 hassigned
    obtain ⟨rfl, nonempty⟩ := (settled _).1 h
    have parts := Table.append_filledIn each fill skip
    exact ⟨⟨_, each, parts⟩, parts ▸ Table.nodup_names_filledIn each distinct, nonempty⟩
  · rintro ⟨⟨assigned, each, rfl⟩, distinct, nonempty⟩
    have apart : (targetNames assigned).Nodup := by
      rw [targetNames_append] at distinct
      exact (List.nodup_append.1 distinct).1
    refine ⟨assigned, (assignedTargets_eq_ok_iff start).2 ⟨assigned, each, rfl, apart⟩, ?_⟩
    exact (settled _).2 ⟨(Table.append_filledIn each fill skip).symm, nonempty⟩

theorem Table.Sets.mem_columns {ts : List Target} (h : t.Sets as fill skip ts) :
    ∀ x ∈ ts, x.column ∈ t.columns := by
  obtain ⟨assigned, each, rfl⟩ := h.parts
  rw [List.forall_mem_append]
  refine ⟨forall_of_forall₂ (fun _ _ x assigns => assigns.member) each, ?_⟩
  intro x hx
  unfold filledIn at hx
  split at hx
  · obtain ⟨c, hc, rfl⟩ := List.mem_map.1 hx
    exact List.mem_of_mem_filter hc
  · cases hx

/-! ## Texts on one table -/

/-- The scope of a statement on one table. -/
def Table.alone (t : Table) : Scope := ⟨⟨t, t.sqlName, [], false⟩, []⟩

theorem Table.resolve_eq_ok_iff {s : Scope} :
    Scope.resolve t [] = .ok s ↔ t.isGhost = false ∧ s = t.alone := by
  unfold Scope.resolve
  cases t.isGhost with
  | true => simp
  | false => simp [alone, eq_comm]

/-- Without joins, a column of the table is written by its name alone. -/
theorem Table.columnPieces_alone_eq_ok_iff {c : ColumnRef} {ps : List Piece} :
    t.alone.columnPieces c = .ok ps ↔
      c.source = .main ∧ ∃ column, t.column? c.column = some column ∧
        ps = [.name column.sqlName] := by
  obtain ⟨source, name⟩ := c
  rw [Scope.columnPieces_eq_ok_iff]
  simp only [← column_eq_ok_iff_column?]
  cases source with
  | main =>
    constructor
    · rintro ⟨_, column, ⟨⟩, found, rfl⟩
      exact ⟨rfl, column, found, rfl⟩
    · rintro ⟨-, column, found, rfl⟩
      exact ⟨_, column, rfl, found, rfl⟩
  | join index => simp [Scope.seat, alone]

/-- The SQL of a part of a fragment in a statement on one table. -/
def FragmentPart.sqlOn? (d : Dialect) (t : Table) : FragmentPart → Option String
  | .raw sql => some sql
  | .column ⟨.main, name⟩ => (t.column? name).map fun c => d.quote c.sqlName
  | .column ⟨.join _, _⟩ => none
  | .param _ => some d.placeholder

/-- The SQL of a fragment in a statement on one table. -/
def Fragment.sqlOn? (d : Dialect) (t : Table) (f : Fragment) : Option String :=
  (f.parts.mapM (FragmentPart.sqlOn? d t)).map String.join

/-- The SQL of the value that a column is set to. -/
def Target.valueSql? (d : Dialect) (t : Table) (x : Target) : Option String :=
  match x.value with
  | .param _ => some d.placeholder
  | .fragment f => f.sqlOn? d t
  | .default => x.column.fallbackSql? d

variable {d : Dialect}

theorem FragmentPart.sqlOn?_of_yields {part : FragmentPart} {ps : List Piece}
    (h : (part.write t.alone).Yields () ps) : part.sqlOn? d t = some (piecesSql d ps) := by
  cases part with
  | raw sql =>
    rw [Draft.yields_write.1 h]
    simp [sqlOn?, piecesSql, Piece.sql]
  | param p =>
    rw [Param.yields_write.1 h]
    simp [sqlOn?, piecesSql, Piece.sql]
  | column c =>
    obtain ⟨source, name⟩ := c
    obtain ⟨rfl, column, found, rfl⟩ :=
      Table.columnPieces_alone_eq_ok_iff.1 (Scope.yields_writeColumn.1 h)
    dsimp only at found
    simp [sqlOn?, found, piecesSql, Piece.sql]

theorem mapM_sqlOn?_of_yields {parts : List FragmentPart} {ps : List Piece}
    (h : (writeParts t.alone parts).Yields () ps) :
    ∃ texts, parts.mapM (FragmentPart.sqlOn? d t) = some texts ∧
      String.join texts = piecesSql d ps := by
  induction parts generalizing ps with
  | nil =>
    obtain ⟨-, rfl⟩ := Draft.yields_pure.1 h
    exact ⟨[], rfl, rfl⟩
  | cons part rest ih =>
    obtain ⟨before, hpart, behind, hrest, rfl⟩ := Draft.yields_bind_unit.1 h
    obtain ⟨texts, mapped, joined⟩ := ih hrest
    refine ⟨piecesSql d before :: texts, ?_, ?_⟩
    · rw [List.mapM_cons, FragmentPart.sqlOn?_of_yields hpart, mapped]
      rfl
    · rw [piecesSql_append, ← joined]
      simp

theorem Target.valueSql?_of_yields {x : Target} {ps : List Piece}
    (h : (x.writeValue t.alone).Yields () ps) : x.valueSql? d t = some (piecesSql d ps) := by
  unfold valueSql?
  rcases Target.yields_writeValue h with ⟨p, value, rfl⟩ | ⟨f, value, hf⟩ | ⟨v, value, found, rfl⟩
  · rw [value]
    simp [piecesSql, Piece.sql]
  · obtain ⟨texts, mapped, joined⟩ := mapM_sqlOn?_of_yields (d := d) hf
    rw [value]
    simp [Fragment.sqlOn?, mapped, joined]
  · rw [value]
    simp [Column.fallbackSql?, found, piecesSql, Piece.sql]

/-! ## What is compiled -/

/-- A column that is set, with the SQL of its value. -/
abbrev Setting := Target × String

/-- The names that settings have in the database. -/
def databaseNames (sets : List Setting) : List String := sets.map (·.1.column.sqlName)

/-- The insert is compiled to a list of columns and a list of their values, with the
    parameters of these. -/
structure Compiled.Inserts (d : Dialect) (t : Table) (i : Insert) (c : Compiled)
    (sets : List Setting) : Prop where
  columns : t.Sets i.assignments i.fillDefaults (·.type.autoIncrement) (sets.map (·.1))
  values : ∀ s ∈ sets, s.1.valueSql? d t = some s.2
  sql : c.sql = "INSERT INTO " ++ d.quote t.sqlName ++ " (" ++
    String.intercalate ", " (sets.map fun s => d.quote s.1.column.sqlName) ++ ") VALUES (" ++
    String.intercalate ", " (sets.map (·.2)) ++ ")"
  params : c.params = sets.flatMap (·.1.value.occurrences)
  unshadowed : ∀ s ∈ sets, s.1.value = .default → s.1.column.name ∉ c.params.map (·.name)

/-- The update is compiled to a list of columns with their values and the text of its
    filter, with the parameters of both. -/
structure Compiled.Updates (d : Dialect) (t : Table) (u : Update) (c : Compiled)
    (sets : List Setting) : Prop where
  columns : t.Sets u.assignments u.fillDefaults (·.type.primaryKey) (sets.map (·.1))
  values : ∀ s ∈ sets, s.1.valueSql? d t = some s.2
  sql : ∃ filter, (u.filter.write t.alone).Yields () filter ∧
    c.sql = "UPDATE " ++ d.quote t.sqlName ++ " SET " ++
      String.intercalate ", " (sets.map fun s => d.quote s.1.column.sqlName ++ " = " ++ s.2) ++
      piecesSql d filter
  params : c.params = sets.flatMap (·.1.value.occurrences) ++ u.filter.occurrences
  unshadowed : ∀ s ∈ sets, s.1.value = .default → s.1.column.name ∉ c.params.map (·.name)

theorem shadowedDefault?_eq_none_iff {params : List String} {ts : List Target} :
    shadowedDefault? params ts = none ↔ ∀ x ∈ ts, x.value = .default → x.column.name ∉ params := by
  rw [shadowedDefault?, Option.map_eq_none_iff, List.find?_eq_none]
  simp

/-- Columns that are written with their values, as settings. -/
theorem exists_settings (text : Setting → String) {ts : List Target} {pss : List (List Piece)}
    (h : List.Forall₂ (fun x qs => ∃ value, (Target.writeValue t.alone x).Yields () value ∧
      piecesSql d qs = text (x, piecesSql d value)) ts pss) :
    ∃ sets : List Setting, sets.map (·.1) = ts ∧ pss.map (piecesSql d) = sets.map text ∧
      ∀ s ∈ sets, s.1.valueSql? d t = some s.2 := by
  induction h with
  | nil => exact ⟨[], rfl, rfl, by simp⟩
  | @cons x qs _ _ first _ ih =>
    obtain ⟨value, written, shown⟩ := first
    obtain ⟨sets, targets_eq, texts_eq, each⟩ := ih
    refine ⟨(x, piecesSql d value) :: sets, by rw [List.map_cons, targets_eq],
      by rw [List.map_cons, texts_eq, List.map_cons, shown], ?_⟩
    rw [List.forall_mem_cons]
    exact ⟨Target.valueSql?_of_yields written, each⟩

theorem Target.yields_writeAssignment_alone {x : Target} (member : x.column ∈ t.columns)
    {qs : List Piece} (h : (x.writeAssignment t.alone).Yields () qs) :
    ∃ value, (x.writeValue t.alone).Yields () value ∧
      piecesSql d qs = d.quote x.column.sqlName ++ " = " ++ piecesSql d value := by
  obtain ⟨column, value, hcolumn, hvalue, rfl⟩ := Target.yields_writeAssignment h
  obtain ⟨-, found, hfound, rfl⟩ := Table.columnPieces_alone_eq_ok_iff.1 hcolumn
  have own : t.column? x.column.name = some x.column :=
    (find?_name_eq_some_iff t.distinct).2 ⟨member, rfl⟩
  obtain rfl : x.column = found := Option.some.inj (own.symm.trans hfound)
  refine ⟨value, hvalue, ?_⟩
  rw [piecesSql_append, piecesSql_append]
  simp [piecesSql, Piece.sql]

section Compiled

variable {o : Options} {a : Action} {c : Compiled} {name : String} {task : Task}
  {kind : ActionKind} {draft : Draft (List Target)}

/-- The draft behind an insert or update that compiles. -/
theorem Action.targets_of_compile (h : a.compile o = .ok c) (core : a.core = .perform name t task)
    (writes : task.prepare o.naming t = settleTargets draft >>= fun s => pure (kind, s, none)) :
    ∃ ts ps, draft.Yields ts ps ∧ c.sql = piecesSql o.dialect ps ∧ c.params = slots ps ∧
      ∀ x ∈ ts, x.value = .default → x.column.name ∉ c.params.map (·.name) := by
  obtain ⟨kind', statement, shape, prepared, sql, params⟩ := Action.task_of_compile h core
  rw [writes] at prepared
  obtain ⟨s, hs, made⟩ := bind_eq_ok_iff.1 prepared
  obtain ⟨-, rfl, -⟩ : kind = kind' ∧ s = statement ∧ none = shape := by
    simpa using pure_eq_ok_iff.1 made
  obtain ⟨ts, settled, unshadowed⟩ := settleTargets_eq_ok hs
  refine ⟨ts, s.pieces, (Draft.settle_eq_ok_iff_yields.1 settled).2, sql, params, ?_⟩
  rw [params]
  exact shadowedDefault?_eq_none_iff.1 unshadowed

theorem Action.inserts_of_compile {i : Insert} (h : a.compile o = .ok c)
    (core : a.core = .perform name t (.insert i)) : ∃ sets, c.Inserts o.dialect t i sets := by
  obtain ⟨ts, ps, written, sql, params, unshadowed⟩ := Action.targets_of_compile h core rfl
  obtain ⟨scope, names, values, hscope, htargets, hnames, hvalues, rfl⟩ :=
    Insert.yields_write written
  obtain ⟨-, rfl⟩ := Table.resolve_eq_ok_iff.1 hscope
  have shown := hvalues.imp fun x qs h => show ∃ value, (x.writeValue t.alone).Yields () value ∧
    piecesSql o.dialect qs = (x, piecesSql o.dialect value).2 from ⟨qs, h, rfl⟩
  obtain ⟨sets, rfl, texts, each⟩ := exists_settings (·.2) shown
  have names_eq := hnames.imp fun x qs h => h.symm
  rw [← List.forall₂_map_left_iff, List.forall₂_eq_eq_eq] at names_eq
  refine ⟨sets, targets_eq_ok_iff.1 htargets, each, ?_, ?_, ?_⟩
  · rw [sql, ← names_eq]
    simp only [piecesSql_append, piecesSql_intercalate, texts]
    simp [piecesSql, Piece.sql, Function.comp_def, String.append_assoc]
  · rw [params, Insert.slots_write written, ← flatMap_occurrences_targets htargets,
      List.flatMap_map]
  · intro s hs
    exact unshadowed s.1 (List.mem_map_of_mem hs)

theorem Action.updates_of_compile {u : Update} (h : a.compile o = .ok c)
    (core : a.core = .perform name t (.update u)) : ∃ sets, c.Updates o.dialect t u sets := by
  obtain ⟨ts, ps, written, sql, params, unshadowed⟩ := Action.targets_of_compile h core rfl
  obtain ⟨scope, assignments, filter, -, hscope, htargets, hassignments, hfilter, rfl⟩ :=
    Update.yields_write written
  obtain ⟨-, rfl⟩ := Table.resolve_eq_ok_iff.1 hscope
  have columns := targets_eq_ok_iff.1 htargets
  have shown := ((List.forall₂_and_left _ _).2 ⟨columns.mem_columns, hassignments⟩).imp
    fun x qs h => Target.yields_writeAssignment_alone (d := o.dialect) h.1 h.2
  obtain ⟨sets, rfl, texts, each⟩ :=
    exists_settings (fun s => o.dialect.quote s.1.column.sqlName ++ " = " ++ s.2) shown
  refine ⟨sets, columns, each, ⟨filter, hfilter, ?_⟩, ?_, ?_⟩
  · rw [sql]
    simp only [piecesSql_append, piecesSql_intercalate, texts]
    simp [piecesSql, Piece.sql, String.append_assoc]
  · rw [params, Update.slots_write written, ← flatMap_occurrences_targets htargets,
      List.flatMap_map]
  · intro s hs
    exact unshadowed s.1 (List.mem_map_of_mem hs)

end Compiled

/-- Every insert and every update that compiles, wrapped or not, sets the columns that it
    assigns, in order, and then the columns left to their defaults: an insert those that
    the database does not number, an update those outside the primary key. The text has
    the columns with their own values, and no parameter has the name of a column that
    gets its default. -/
theorem Action.sets_compile {o : Options} {a : Action} {c : Compiled} (h : a.compile o = .ok c)
    {name : String} {table : Table} :
    (∀ i, a.core = .perform name table (.insert i) → ∃ sets, c.Inserts o.dialect table i sets) ∧
    ∀ u, a.core = .perform name table (.update u) → ∃ sets, c.Updates o.dialect table u sets :=
  ⟨fun _ core => inserts_of_compile h core, fun _ core => updates_of_compile h core⟩

/-- A crew, some of it on trial. -/
def crew : Table where
  name := "crew"
  databaseName := none
  columns := [.primaryKey "id", (Column.ofScalar "name" .text).withDatabaseName "full_name",
    (Column.ofScalar "trial" .bool).withDefault (.bool true),
    (Column.ofScalar "note" .text).asNullable,
    (Column.ofScalar "since" .dateTime).withDefault .currentDateTime]
  distinct := by decide
  finite := by decide

/-- A member of the crew is hired, from now on if no date is given. -/
def hiring : Insert where
  assignments := [
    ⟨"since", .fragment ⟨[.raw "COALESCE(", .param ⟨"start", { scalar := .dateTime }⟩,
      .raw ", NOW())"]⟩⟩,
    ⟨"name", .param ⟨"name", { scalar := .text }⟩⟩]
  fillDefaults := true

/-- A member of the crew gets another name and is on trial once more. -/
def renewal : Update where
  assignments := [⟨"since", .fragment ⟨[.column (.ofMain "since")]⟩⟩,
    ⟨"name", .param ⟨"name", { scalar := .text }⟩⟩]
  fillDefaults := true
  filter := { conditions := [.equals (.ofMain "id") ⟨"id", .count⟩] }

theorem crew_sets :
    (∃ c sets, (Action.wrap "today" crew (.perform "hire" crew (.insert hiring))
        [("start", .null)]).compile {} = .ok c ∧
      c.Inserts .mysql crew hiring sets ∧
      sets.map (fun s => (s.1.column.name, some s.2)) = [("since", some "COALESCE(?, NOW())"),
        ("name", some "?"), ("trial", some "TRUE"), ("note", some "NULL")]) ∧
    ∃ c sets, (Action.perform "renew" crew (.update renewal)).compile {} = .ok c ∧
      c.Updates .mysql crew renewal sets ∧
      sets.map (fun s => (s.1.column.name, some s.2)) = [("since", some "\x60since\x60"),
        ("name", some "?"), ("trial", some "TRUE"), ("note", some "NULL")] := by
  have shown : ∀ sets : List Setting, (∀ s ∈ sets, s.1.valueSql? .mysql crew = some s.2) →
      sets.map (fun s => (s.1.column.name, some s.2)) =
        (sets.map (·.1)).map fun x => (x.column.name, x.valueSql? .mysql crew) := by
    intro sets values
    rw [List.map_map]
    exact List.map_congr_left fun s hs => by simp [values s hs]
  constructor
  · have compiles : ∃ c, (Action.wrap "today" crew (.perform "hire" crew (.insert hiring))
        [("start", .null)]).compile {} = .ok c := ⟨_, rfl⟩
    obtain ⟨c, hc⟩ := compiles
    obtain ⟨sets, inserts⟩ := (Action.sets_compile hc).1 hiring rfl
    refine ⟨c, sets, hc, inserts, ?_⟩
    have settled : .ok (sets.map (·.1)) = targets crew _ _ _ :=
      (targets_eq_ok_iff.2 inserts.columns).symm
    rw [shown sets inserts.values, Except.ok.inj settled]
    decide
  · have compiles : ∃ c, (Action.perform "renew" crew (.update renewal)).compile {} = .ok c :=
      ⟨_, rfl⟩
    obtain ⟨c, hc⟩ := compiles
    obtain ⟨sets, updates⟩ := (Action.sets_compile hc).2 renewal rfl
    refine ⟨c, sets, hc, updates, ?_⟩
    have settled : .ok (sets.map (·.1)) = targets crew _ _ _ :=
      (targets_eq_ok_iff.2 updates.columns).symm
    rw [shown sets updates.values, Except.ok.inj settled]
    decide

end Bindery
