import Bindery.Proofs.Schema.Registry
import Bindery.Proofs.Scope
import Bindery.Proofs.Text.Token
import Bindery.Schema.Creation

/-!
# Table creations that belong together

The creation of a table writes a foreign key by the names that its target has in the
database. The target is a registered table with the column that is meant, so it has
columns and is created as well. The statements of a registry therefore refer to nothing
but each other, also where tables refer to each other in circles.

* `Registry.Resolves`: every reference of a registry names a table and a column of it.
* `Table.CreatedAs`: the parts of a creation, by the table and its references.
* `Registry.createAll_isOk_iff`: a registry has statements if its references resolve.
* `Creation.line_mem_lines_iff`, `Creation.primaryKey_eq_of_mem_lines`: the keys of a
  creation are read off its lines.
* `Creation.Closed`: a creation whose keys name columns that are created.
* `Table.CreatedAs.closed`, `Registry.createAll_closed`: the creations of a registry are
  closed.
-/

namespace Bindery

/-! ## References -/

/-- The table and the column that a foreign key means, among registered tables. -/
def ForeignKey.Means (r : Registry) (key : ForeignKey) (target : Table) (c : Column) : Prop :=
  (target ∈ r.tables ∧ target.name = key.table) ∧ c ∈ target.columns ∧ c.name = key.column

/-- Every reference of a table with columns names a registered table and one of its
    columns. -/
def Registry.Resolves (r : Registry) : Prop :=
  ∀ t ∈ r.tables, t.isGhost = false → ∀ c ∈ t.columns, ∀ key ∈ c.references,
    ∃ target column, key.Means r target column

/-- A foreign key line for a column: it names the target of the column as the database
    knows it. -/
def Column.PointsBy (r : Registry) (c : Column) (line : ForeignKeyLine) : Prop :=
  ∃ key ∈ c.references, ∃ target column, key.Means r target column ∧
    line = ⟨c.sqlName, target.sqlName, column.sqlName⟩

theorem Registry.get_eq_ok_iff {r : Registry} (distinct : (r.tables.map (·.name)).Nodup)
    {name : String} {t : Table} : r.get name = .ok t ↔ t ∈ r.tables ∧ t.name = name := by
  rw [← find?_name_eq_some_iff distinct]
  unfold get get?
  cases r.tables.find? (·.name == name) with
  | none => simp
  | some u => simp

theorem Column.foreignKeyLine_eq_ok_iff {r : Registry} (distinct : (r.tables.map (·.name)).Nodup)
    {c : Column} {line : Option ForeignKeyLine} :
    c.foreignKeyLine r = .ok line ↔
      (c.references = none ∧ line = none) ∨ ∃ f, line = some f ∧ c.PointsBy r f := by
  unfold foreignKeyLine PointsBy
  cases c.references with
  | none => simp [eq_comm]
  | some key =>
    simp only [bind_eq_ok_iff, pure_eq_ok_iff, Registry.get_eq_ok_iff distinct,
      Table.column_eq_ok_iff, reduceCtorEq, false_and, false_or]
    constructor
    · rintro ⟨target, registered, column, found, rfl⟩
      exact ⟨_, rfl, key, rfl, target, column, ⟨registered, found⟩, rfl⟩
    · rintro ⟨_, rfl, _, ⟨⟩, target, column, ⟨registered, found⟩, rfl⟩
      exact ⟨target, registered, column, found, rfl⟩

theorem Column.foreignKeyLine_isOk_iff {r : Registry} (distinct : (r.tables.map (·.name)).Nodup)
    {c : Column} :
    (∃ line, c.foreignKeyLine r = .ok line) ↔
      ∀ key ∈ c.references, ∃ target column, key.Means r target column := by
  simp only [foreignKeyLine_eq_ok_iff distinct]
  unfold PointsBy
  cases c.references with
  | none => simp
  | some key =>
    constructor
    · rintro ⟨_, ⟨⟨⟩, -⟩ | ⟨_, -, _, ⟨⟩, target, column, means, -⟩⟩ _ ⟨⟩
      exact ⟨target, column, means⟩
    · intro resolves
      obtain ⟨target, column, means⟩ := resolves key rfl
      exact ⟨_, .inr ⟨_, rfl, key, rfl, target, column, means, rfl⟩⟩

/-- The lines of columns are those of the columns that refer to something. -/
theorem forall₂_pointsBy {r : Registry} (distinct : (r.tables.map (·.name)).Nodup)
    {columns : List Column} {lines : List (Option ForeignKeyLine)}
    (h : columns.mapM (Column.foreignKeyLine r) = .ok lines) :
    List.Forall₂ (Column.PointsBy r) (columns.filter (·.references.isSome))
      (lines.filterMap id) := by
  have each := mapM_eq_ok_iff.1 h
  clear h
  induction each with
  | nil => exact .nil
  | @cons c line columns lines first _ ih =>
    rcases (Column.foreignKeyLine_eq_ok_iff distinct).1 first with ⟨none, rfl⟩ | ⟨f, rfl, points⟩
    · rw [List.filter_cons_of_neg (by simp [none]), List.filterMap_cons_none rfl]
      exact ih
    · have refers : c.references.isSome = true := by
        obtain ⟨key, hkey, -⟩ := points
        rw [Option.mem_def.1 hkey]
        rfl
      rw [List.filter_cons, if_pos refers]
      exact .cons points ih

/-! ## Creations -/

/-- The parts of the creation of a table: its columns, the key columns among them, and
    a foreign key line for each column that refers to something. -/
structure Table.CreatedAs (r : Registry) (t : Table) (k : Creation) : Prop where
  table : k.table = t.sqlName
  columns : k.columns = t.columns
  primaryKey : k.primaryKey = (t.columns.filter (·.type.primaryKey)).map (·.sqlName)
  foreignKeys :
    List.Forall₂ (Column.PointsBy r) (t.columns.filter (·.references.isSome)) k.foreignKeys

theorem Table.creation_of_columns {r : Registry} {t : Table} (full : t.isGhost = false) :
    t.creation r = t.columns.mapM (Column.foreignKeyLine r) >>= fun lines =>
      .ok ⟨t.sqlName, t.columns, (t.columns.filter (·.type.primaryKey)).map (·.sqlName),
        lines.filterMap id⟩ := by
  unfold creation
  rw [full]
  rfl

theorem Table.createdAs_of_creation {r : Registry} (distinct : (r.tables.map (·.name)).Nodup)
    {t : Table} (full : t.isGhost = false) {k : Creation} (h : t.creation r = .ok k) :
    t.CreatedAs r k := by
  rw [creation_of_columns full] at h
  obtain ⟨lines, hlines, made⟩ := bind_eq_ok_iff.1 h
  cases made
  exact ⟨rfl, rfl, rfl, forall₂_pointsBy distinct hlines⟩

theorem Table.creation_isOk_iff {r : Registry} (distinct : (r.tables.map (·.name)).Nodup)
    {t : Table} (full : t.isGhost = false) :
    (∃ k, t.creation r = .ok k) ↔
      ∀ c ∈ t.columns, ∀ key ∈ c.references, ∃ target column, key.Means r target column := by
  rw [creation_of_columns full]
  simp only [bind_eq_ok_iff]
  rw [← forall₂_congr fun c _ => Column.foreignKeyLine_isOk_iff distinct, ← exists_mapM_eq_ok_iff]
  constructor
  · rintro ⟨_, lines, hlines, -⟩
    exact ⟨lines, hlines⟩
  · rintro ⟨lines, hlines⟩
    exact ⟨_, lines, hlines, rfl⟩

theorem Registry.createAll_eq_ok_iff {r : Registry} {d : Dialect} {statements : List String} :
    r.createAll d = .ok statements ↔
      ∃ creations, (r.tables.filter (!·.isGhost)).mapM (Table.creation r) = .ok creations ∧
        statements = creations.map (Creation.sql d) :=
  mapM_map_eq_ok_iff

theorem Registry.createAll_isOk_iff {r : Registry} (distinct : (r.tables.map (·.name)).Nodup)
    (d : Dialect) : (∃ statements, r.createAll d = .ok statements) ↔ r.Resolves := by
  have created : (∃ statements, r.createAll d = .ok statements) ↔
      ∃ creations, (r.tables.filter (!·.isGhost)).mapM (Table.creation r) = .ok creations := by
    simp only [createAll_eq_ok_iff]
    constructor
    · rintro ⟨_, creations, h, -⟩
      exact ⟨creations, h⟩
    · rintro ⟨creations, h⟩
      exact ⟨_, creations, h, rfl⟩
  rw [created, exists_mapM_eq_ok_iff]
  constructor
  · intro each t member full
    rw [← Table.creation_isOk_iff distinct full]
    exact each t (List.mem_filter.2 ⟨member, by simp [full]⟩)
  · intro resolves t member
    obtain ⟨registered, full⟩ := List.mem_filter.1 member
    rw [Bool.not_eq_true'] at full
    rw [Table.creation_isOk_iff distinct full]
    exact resolves t registered full

/-! ## Lines -/

/-- The lines between the parentheses of a creation. The expression of a default belongs
    to the line of its column, whatever it says. -/
def Creation.lines (d : Dialect) (k : Creation) : List String :=
  k.columns.map (Column.line d) ++ primaryKeyLine d k.primaryKey
    ++ k.foreignKeys.map (ForeignKeyLine.line d)

/-- A quoted name in front of a break is told apart from what comes behind it. -/
theorem Dialect.quote_append_inj {d : Dialect} {name name' : String} {rest rest' : List Char}
    (breaks : Token.Breaks rest) (breaks' : Token.Breaks rest')
    (h : (d.quote name).toList ++ rest = (d.quote name').toList ++ rest') :
    name = name' ∧ rest = rest' := by
  have quote := Token.quoteChar_not_mem_breaks d
  unfold Dialect.quote at h
  rw [toList_quoted_append, toList_quoted_append, List.cons.injEq] at h
  have read := readQuoted_double name.toList (breaks.head?_ne quote)
  rw [h.2, readQuoted_double name'.toList (breaks'.head?_ne quote), Option.some_inj,
    Prod.mk.injEq] at read
  exact ⟨(String.toList_inj.1 read.1).symm, read.2.symm⟩

theorem ForeignKeyLine.line_injective (d : Dialect) :
    Function.Injective (ForeignKeyLine.line d) := by
  rintro ⟨column, table, target⟩ ⟨column', table', target'⟩ h
  have closing (rest : List Char) : Token.Breaks (") REFERENCES ".toList ++ rest) := by
    simp [Token.Breaks, Token.breaks]
  have opening (rest : List Char) : Token.Breaks (" (".toList ++ rest) := by
    simp [Token.Breaks, Token.breaks]
  have closed : Token.Breaks ")".toList := by simp [Token.Breaks, Token.breaks]
  have lists := congrArg String.toList h
  unfold line at lists
  simp only [String.toList_append, List.append_assoc] at lists
  obtain ⟨rfl, references⟩ :=
    Dialect.quote_append_inj (closing _) (closing _) (List.append_cancel_left lists)
  obtain ⟨rfl, key⟩ :=
    Dialect.quote_append_inj (opening _) (opening _) (List.append_cancel_left references)
  obtain ⟨rfl, -⟩ := Dialect.quote_append_inj closed closed (List.append_cancel_left key)
  rfl

/-- What stands behind the first of the names that a primary key lists. -/
def Dialect.otherKeys (d : Dialect) : List String → List Char
  | [] => ")".toList
  | name :: rest => ", ".toList ++ ((d.quote name).toList ++ d.otherKeys rest)

theorem Dialect.breaks_otherKeys (d : Dialect) (names : List String) :
    Token.Breaks (d.otherKeys names) := by
  cases names with
  | nil => simp [Token.Breaks, Token.breaks, otherKeys]
  | cons name rest => simp [Token.Breaks, Token.breaks, otherKeys]

theorem Dialect.otherKeys_injective (d : Dialect) : Function.Injective d.otherKeys := by
  intro names
  induction names with
  | nil =>
    rintro (_ | ⟨name', rest'⟩) h
    · rfl
    · simp [otherKeys] at h
  | cons name rest ih =>
    rintro (_ | ⟨name', rest'⟩) h
    · simp [otherKeys] at h
    · unfold otherKeys at h
      obtain ⟨rfl, others⟩ := quote_append_inj (d.breaks_otherKeys rest)
        (d.breaks_otherKeys rest') (List.append_cancel_left h)
      rw [ih others]

theorem toList_intercalate_quote (d : Dialect) (name : String) (rest : List String) :
    (String.intercalate ", " ((name :: rest).map d.quote)).toList ++ ")".toList =
      (d.quote name).toList ++ d.otherKeys rest := by
  induction rest generalizing name with
  | nil => simp [Dialect.otherKeys, String.intercalate_singleton]
  | cons name' rest ih =>
    rw [List.map_cons, List.map_cons, String.intercalate_cons_cons, String.toList_append,
      String.toList_append, List.append_assoc, ← List.map_cons, ih, List.append_assoc]
    rfl

theorem primaryKeyLine_injective (d : Dialect) : Function.Injective (primaryKeyLine d) := by
  rintro (_ | ⟨name, rest⟩) (_ | ⟨name', rest'⟩) h
  · rfl
  · cases h
  · cases h
  · have lists := congrArg String.toList (List.cons.inj h).1
    simp only [String.toList_append, List.append_assoc] at lists
    have keys := List.append_cancel_left lists
    rw [toList_intercalate_quote, toList_intercalate_quote] at keys
    obtain ⟨rfl, others⟩ :=
      Dialect.quote_append_inj (d.breaks_otherKeys rest) (d.breaks_otherKeys rest') keys
    rw [d.otherKeys_injective others]

theorem Column.line_eq (d : Dialect) (c : Column) :
    ∃ rest, c.line d = d.quote c.sqlName ++ " " ++ rest := by
  unfold line
  dsimp only
  rw [List.cons_append, List.cons_append]
  exact ⟨_, String.intercalate_cons_cons⟩

theorem primaryKeyLine_eq_of_mem {d : Dialect} {names : List String} {line : String}
    (h : line ∈ primaryKeyLine d names) : primaryKeyLine d names = [line] := by
  cases names with
  | nil => cases h
  | cons name rest =>
    rw [List.mem_singleton.1 h]
    rfl

/-! The first character of a line tells what kind of line it is. -/

theorem Column.head?_line (d : Dialect) (c : Column) :
    (c.line d).toList.head? = some d.quoteChar := by
  obtain ⟨rest, line_eq⟩ := c.line_eq d
  rw [line_eq, String.append_assoc, String.toList_append]
  unfold Dialect.quote
  rw [Dialect.toList_quoted_append, List.head?_cons]

theorem ForeignKeyLine.head?_line (d : Dialect) (f : ForeignKeyLine) :
    (f.line d).toList.head? = some 'F' := by
  unfold line
  simp only [String.toList_append, List.append_assoc]
  rfl

theorem head?_of_mem_primaryKeyLine {d : Dialect} {names : List String} {line : String}
    (h : line ∈ primaryKeyLine d names) : line.toList.head? = some 'P' := by
  cases names with
  | nil => cases h
  | cons name rest =>
    rw [List.mem_singleton.1 h]
    simp only [String.toList_append, List.append_assoc]
    rfl

theorem Dialect.quoteChar_ne (d : Dialect) : d.quoteChar ≠ 'F' ∧ d.quoteChar ≠ 'P' := by
  cases d <;> decide

namespace Creation

variable {d : Dialect} {k : Creation}

/-- The foreign keys of a creation can be read off its lines. -/
theorem line_mem_lines_iff {f : ForeignKeyLine} : f.line d ∈ k.lines d ↔ f ∈ k.foreignKeys := by
  unfold lines
  rw [List.mem_append, List.mem_append, List.mem_map_of_injective (ForeignKeyLine.line_injective d)]
  refine or_iff_right ?_
  rintro (column | key)
  · obtain ⟨c, -, same⟩ := List.mem_map.1 column
    have first := c.head?_line d
    rw [same, f.head?_line, Option.some_inj] at first
    exact d.quoteChar_ne.1 first.symm
  · have first := head?_of_mem_primaryKeyLine key
    rw [f.head?_line] at first
    exact absurd first (by decide)

/-- The primary key of a creation can be read off its lines. -/
theorem primaryKey_eq_of_mem_lines {names : List String} {line : String}
    (h : line ∈ primaryKeyLine d names) (member : line ∈ k.lines d) : k.primaryKey = names := by
  have first := head?_of_mem_primaryKeyLine h
  unfold lines at member
  rw [List.mem_append, List.mem_append] at member
  rcases member with (column | key) | foreign
  · obtain ⟨c, -, rfl⟩ := List.mem_map.1 column
    rw [c.head?_line, Option.some_inj] at first
    exact absurd first d.quoteChar_ne.2
  · apply primaryKeyLine_injective d
    rw [primaryKeyLine_eq_of_mem h, primaryKeyLine_eq_of_mem key]
  · obtain ⟨f, -, rfl⟩ := List.mem_map.1 foreign
    rw [f.head?_line] at first
    exact absurd first (by decide)

/-- A line of the creation defines a column of the name. -/
def HasColumn (d : Dialect) (k : Creation) (name : String) : Prop :=
  ∃ line ∈ k.lines d, ∃ rest, line = d.quote name ++ " " ++ rest

/-- What the lines of a creation refer to is created: foreign keys lead from its own
    columns to columns of creations among `all`, and the primary key lists columns of its
    own. -/
structure Closed (d : Dialect) (all : List Creation) (k : Creation) : Prop where
  foreign : ∀ f : ForeignKeyLine, f.line d ∈ k.lines d →
    k.HasColumn d f.column ∧ ∃ k' ∈ all, k'.table = f.table ∧ k'.HasColumn d f.target
  primary : ∀ names, ∀ line ∈ primaryKeyLine d names, line ∈ k.lines d →
    ∀ name ∈ names, k.HasColumn d name

end Creation

/-! ## Closure -/

theorem Table.CreatedAs.hasColumn {r : Registry} {t : Table} {k : Creation}
    (created : t.CreatedAs r k) (d : Dialect) {c : Column} (member : c ∈ t.columns) :
    k.HasColumn d c.sqlName := by
  refine ⟨c.line d, ?_, c.line_eq d⟩
  unfold Creation.lines
  rw [created.columns]
  simp only [List.mem_append]
  exact .inl (.inl (List.mem_map_of_mem member))

/-- Each foreign key of a creation is that of one of its columns. -/
theorem Table.CreatedAs.pointsBy {r : Registry} {t : Table} {k : Creation}
    (created : t.CreatedAs r k) : ∀ f ∈ k.foreignKeys, ∃ c ∈ t.columns, c.PointsBy r f := by
  refine forall_of_forall₂ (fun c member f points => ?_) created.foreignKeys
  exact ⟨c, List.mem_of_mem_filter member, points⟩

theorem Table.isGhost_eq_false {t : Table} {c : Column} (member : c ∈ t.columns) :
    t.isGhost = false := List.isEmpty_eq_false_iff_exists_mem.2 ⟨c, member⟩

/-- A creation is closed among those of all tables with columns. The target of a
    reference has a column, so it is one of these, however the references run. -/
theorem Table.CreatedAs.closed {r : Registry} {t : Table} {k : Creation} {all : List Creation}
    (created : t.CreatedAs r k) (d : Dialect)
    (others : ∀ u ∈ r.tables, u.isGhost = false → ∃ k' ∈ all, u.CreatedAs r k') :
    k.Closed d all where
  foreign f line := by
    obtain ⟨c, member, key, -, target, column, ⟨registered, has, -⟩, rfl⟩ :=
      created.pointsBy f (Creation.line_mem_lines_iff.1 line)
    obtain ⟨k', among, created'⟩ := others target registered.1 (isGhost_eq_false has)
    exact ⟨created.hasColumn d member, k', among, created'.table, created'.hasColumn d has⟩
  primary names line key member name listed := by
    rw [← Creation.primaryKey_eq_of_mem_lines key member, created.primaryKey] at listed
    obtain ⟨c, found, rfl⟩ := List.mem_map.1 listed
    exact created.hasColumn d (List.mem_of_mem_filter found)

namespace Registry

/-- The creations of the tables with columns, one by one. -/
theorem forall₂_createdAs {r : Registry} (distinct : (r.tables.map (·.name)).Nodup)
    {creations : List Creation}
    (h : (r.tables.filter (!·.isGhost)).mapM (Table.creation r) = .ok creations) :
    List.Forall₂ (Table.CreatedAs r) (r.tables.filter (!·.isGhost)) creations := by
  have full : ∀ t ∈ r.tables.filter (!·.isGhost), t.isGhost = false := by
    intro t member
    simpa using List.of_mem_filter member
  refine ((List.forall₂_and_left _ _).2 ⟨full, mapM_eq_ok_iff.1 h⟩).imp ?_
  rintro t k ⟨full, made⟩
  exact Table.createdAs_of_creation distinct full made

/-- A registry has statements if and only if every reference of its tables with columns
    names a registered table and one of its columns. The statements are then one for each
    of these tables in the order of their names, and their lines refer to nothing but
    tables and columns that they create. -/
theorem createAll_closed (calls : List Table) (d : Dialect) :
    ((∃ statements, (reached calls).createAll d = .ok statements) ↔ (reached calls).Resolves) ∧
    ∀ statements, (reached calls).createAll d = .ok statements →
      ∃ creations : List Creation,
        statements = creations.map (fun k =>
          "CREATE TABLE " ++ d.quote k.table ++ " (\n    "
            ++ String.intercalate ",\n    " (k.lines d) ++ "\n)") ∧
        List.Forall₂ (Table.CreatedAs (reached calls))
          ((reached calls).tables.filter (!·.isGhost)) creations ∧
        (((reached calls).tables.filter (!·.isGhost)).map (·.name)).Pairwise (· < ·) ∧
        ∀ k ∈ creations, k.Closed d creations := by
  have ascending := (holds_reached calls).ascending
  refine ⟨createAll_isOk_iff ascending.nodup_names d, fun statements h => ?_⟩
  obtain ⟨creations, made, rfl⟩ := createAll_eq_ok_iff.1 h
  have created := forall₂_createdAs ascending.nodup_names made
  have others : ∀ u ∈ (reached calls).tables.filter (!·.isGhost),
      ∃ k ∈ creations, u.CreatedAs (reached calls) k :=
    forall_of_forall₂ (fun k member u created => ⟨k, member, created⟩) created.flip
  refine ⟨creations, rfl, created, ?_, ?_⟩
  · exact List.Pairwise.sublist (List.filter_sublist.map _) ascending
  · refine forall_of_forall₂ (fun t _ k created => ?_) created
    refine created.closed d fun u registered full => others u (List.mem_filter.2 ⟨registered, ?_⟩)
    simp [full]

/-- A firm may belong to another firm and belongs to a person. -/
def firm : Table where
  name := "Firm"
  databaseName := some "firms"
  columns := [.primaryKey "id", (Column.foreignKey "parent" "Firm" "id").asNullable,
    .foreignKey "owner" "Person" "number"]
  distinct := by decide
  finite := by simp [Column.primaryKey, Column.foreignKey, Column.asNullable]

/-- A person may work for a firm. -/
def person : Table where
  name := "Person"
  databaseName := none
  columns := [(Column.primaryKey "number").withDatabaseName "no.",
    .foreignKey "employer" "Firm" "id"]
  distinct := by decide
  finite := by simp [Column.primaryKey, Column.foreignKey, Column.withDatabaseName]

/-- Tables that refer to each other in a circle, one of them to itself as well. -/
theorem firms_closed :
    (reached [person, ghost "Log", firm]).Resolves ∧
    ∃ creations : List Creation,
      (reached [person, ghost "Log", firm]).createAll .generic =
        .ok (creations.map (Creation.sql .generic)) ∧
      creations.map (·.table) = ["firms", "Person"] ∧
      ∀ k ∈ creations, k.Closed .generic creations := by
  obtain ⟨succeeds, closed⟩ := createAll_closed [person, ghost "Log", firm] .generic
  obtain ⟨statements, made⟩ :
      ∃ statements, (reached [person, ghost "Log", firm]).createAll .generic = .ok statements :=
    ⟨_, rfl⟩
  obtain ⟨creations, rfl, created, -, all_closed⟩ := closed statements made
  refine ⟨succeeds.1 ⟨_, made⟩, creations, made, ?_, all_closed⟩
  have tables : List.Forall₂ (fun t k => k.table = t.sqlName) [firm, person] creations :=
    created.imp fun _ _ created => created.table
  rcases tables with _ | ⟨first, _ | ⟨second, _ | _⟩⟩
  rw [List.map_cons, List.map_singleton, first, second]
  rfl

end Registry

end Bindery
