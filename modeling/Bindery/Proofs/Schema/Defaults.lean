import Bindery.Proofs.Schema.DatabaseNames

/-!
# Defaults that are declared and defaults that are filled in

The default of a column shows up in two places: the creation of its table declares it
behind `DEFAULT`, and an insert or update that fills in defaults writes it as the value.
The two are decided apart. They agree for every column but one with a computed default in
a dialect that takes no expression in a table definition: such a default is left to the
statements, and the table declares null if the column may be null and nothing otherwise.

* `Column.declaredSql?`: the text behind `DEFAULT`.
* `Column.line_eq_clause`: where it stands in the line of a column.
* `Column.Withheld`: a default that is left to the statements.
* `Column.declaredSql?_eq_some_iff`: what is declared, by what is filled in.
* `Table.declares_defaults`: both places, for every table.
-/

namespace Bindery

/-! ## The line of a column -/

/-- Words with blanks between them: behind the first word, a blank and a word each. -/
theorem intercalate_cons_eq_join (separator first : String) (rest : List String) :
    String.intercalate separator (first :: rest) =
      first ++ String.join (rest.map (separator ++ ·)) := by
  induction rest generalizing first with
  | nil => simp
  | cons second rest ih =>
    rw [String.intercalate_cons_cons, ih, List.map_cons, String.join_cons]
    simp only [String.append_assoc]

namespace Column

/-- The default that the creation of a table declares for the column. -/
def declaredSql? (d : Dialect) (c : Column) : Option String := (c.declaredDefault? d).map (·.sql d)

/-- The line of a column up to its default: name, type and whether it may be null. -/
def lineHead (d : Dialect) (c : Column) : String :=
  d.quote c.sqlName ++ " " ++ d.columnType c.type.scalar ++
    (if c.type.unsigned && c.type.scalar.isInteger && d.supportsUnsigned then " UNSIGNED" else "") ++
    (if c.type.nullable then " NULL" else " NOT NULL")

/-- The default clause in the line of a column; there may be none. -/
def defaultClause (d : Dialect) (c : Column) : String :=
  match c.declaredSql? d with
  | some sql => " DEFAULT " ++ sql
  | none => ""

/-- The line of a column behind its default: whether the database numbers it. -/
def lineTail (d : Dialect) (c : Column) : String :=
  if c.type.autoIncrement then " " ++ d.autoIncrement else ""

variable {d : Dialect} {c : Column}

/-- The default stands between the head and the tail of the line of a column. -/
theorem line_eq_clause (d : Dialect) (c : Column) :
    c.line d = c.lineHead d ++ c.defaultClause d ++ c.lineTail d := by
  have unsigned (b : Bool) : String.join ((if b then ["UNSIGNED"] else []).map (" " ++ ·)) =
      if b then " UNSIGNED" else "" := by
    cases b <;> rfl
  have null (b : Bool) : String.join ([if b then "NULL" else "NOT NULL"].map (" " ++ ·)) =
      if b then " NULL" else " NOT NULL" := by
    cases b <;> rfl
  have clause (sql : String) : " " ++ ("DEFAULT " ++ sql) = " DEFAULT " ++ sql := by
    rw [← String.append_assoc]
    rfl
  have numbered : String.join ((if c.type.autoIncrement then [d.autoIncrement] else []).map
      (" " ++ ·)) = c.lineTail d := by
    unfold lineTail
    split <;> simp
  unfold line lineHead defaultClause declaredSql?
  dsimp only
  rw [List.append_assoc, List.append_assoc, List.append_assoc, List.cons_append,
    intercalate_cons_eq_join, List.map_append, List.map_append, List.map_append, List.map_append,
    String.join_append, String.join_append, String.join_append, String.join_append, unsigned, null,
    numbered]
  cases c.declaredDefault? d with
  | none => simp [String.append_assoc]
  | some value => simp [String.append_assoc, clause]

/-! ## Defaults that are withheld -/

/-- The default is computed, and the dialect takes no expression in the definition of a
    table. -/
def Withheld (d : Dialect) (c : Column) : Prop :=
  ∃ value, c.default = some value ∧ value.isDynamic = true ∧ d.expressionDefaults = false

theorem declaredSql?_of_withheld (h : c.Withheld d) :
    c.declaredSql? d = if c.type.nullable then some "NULL" else none := by
  obtain ⟨value, default, dynamic, plain⟩ := h
  unfold declaredSql? declaredDefault?
  rw [default]
  by_cases nullable : c.type.nullable = true
  · simp [dynamic, plain, nullable, DefaultValue.sql]
  · simp [dynamic, plain, nullable]

theorem declaredSql?_of_not_withheld (h : ¬ c.Withheld d) : c.declaredSql? d = c.fallbackSql? d := by
  unfold declaredSql? declaredDefault? fallbackSql? fallback?
  cases default : c.default with
  | none => rfl
  | some value =>
    have written : (!value.isDynamic || d.expressionDefaults) = true := by
      by_contra held
      rw [Bool.not_eq_true, Bool.or_eq_false_iff, Bool.not_eq_false_eq_eq_true] at held
      exact h ⟨value, default, held.1, held.2⟩
    dsimp only
    rw [if_pos written]
    rfl

/-- A table declares what statements fill in, or null in the place of a default that is
    withheld. -/
theorem declaredSql?_eq_some_iff {text : String} :
    c.declaredSql? d = some text ↔
      (¬ c.Withheld d ∧ c.fallbackSql? d = some text) ∨
        (c.Withheld d ∧ c.type.nullable = true ∧ text = "NULL") := by
  by_cases withheld : c.Withheld d
  · rw [declaredSql?_of_withheld withheld]
    by_cases nullable : c.type.nullable = true
    · simp [withheld, nullable, eq_comm]
    · simp [withheld, nullable]
  · rw [declaredSql?_of_not_withheld withheld]
    simp [withheld]

end Column

/-! ## Tables and statements -/

/-- The creation of a table has a line for each column, its default included. -/
theorem Table.createSql_eq_ok {t : Table} {r : Registry} {d : Dialect} {sql : String}
    (h : t.createSql r d = .ok sql) :
    ∃ keys, sql = "CREATE TABLE " ++ d.quote t.sqlName ++ " (\n    " ++
      String.intercalate ",\n    "
        (t.columns.map (fun c => c.lineHead d ++ c.defaultClause d ++ c.lineTail d) ++ keys) ++
      "\n)" := by
  obtain ⟨k, made, rfl⟩ := map_eq_ok_iff.1 h
  obtain ⟨table, columns⟩ := Table.creation_columns made
  refine ⟨primaryKeyLine d k.primaryKey ++ k.foreignKeys.map (ForeignKeyLine.line d), ?_⟩
  rw [← table, ← columns, ← List.append_assoc]
  simp only [← Column.line_eq_clause]
  rfl

/-- A column that is left to its default is set to the default it falls back to. -/
theorem Target.fallbackSql?_of_default {d : Dialect} {t : Table} {s : Setting}
    (value : s.1.valueSql? d t = some s.2) (default : s.1.value = .default) :
    s.1.column.fallbackSql? d = some s.2 := by
  unfold Target.valueSql? at value
  rw [default] at value
  exact value

/-- The creation of a table writes the declared default of each column in its line, and
    the inserts and updates that compile set each column that is left to its default to
    what it falls back to. Wherever a default is declared, it is the one that is filled
    in, unless it is a computed one that the dialect withholds from a column that may be
    null: there null is declared. -/
theorem Table.declares_defaults (t : Table) (r : Registry) (o : Options) :
    (∀ sql, t.createSql r o.dialect = .ok sql →
      ∃ keys, sql = "CREATE TABLE " ++ o.dialect.quote t.sqlName ++ " (\n    " ++
        String.intercalate ",\n    " (t.columns.map (fun c =>
          c.lineHead o.dialect ++ c.defaultClause o.dialect ++ c.lineTail o.dialect) ++ keys) ++
        "\n)") ∧
    (∀ a c name i, Action.compile o a = .ok c → a.core = .perform name t (.insert i) →
      ∃ sets, c.Inserts o.dialect t i sets ∧
        ∀ s ∈ sets, s.1.value = .default → s.1.column.fallbackSql? o.dialect = some s.2) ∧
    (∀ a c name u, Action.compile o a = .ok c → a.core = .perform name t (.update u) →
      ∃ sets, c.Updates o.dialect t u sets ∧
        ∀ s ∈ sets, s.1.value = .default → s.1.column.fallbackSql? o.dialect = some s.2) ∧
    ∀ (c : Column) (text : String), c.declaredSql? o.dialect = some text ↔
      (¬ c.Withheld o.dialect ∧ c.fallbackSql? o.dialect = some text) ∨
        (c.Withheld o.dialect ∧ c.type.nullable = true ∧ text = "NULL") := by
  refine ⟨?created, ?inserted, ?updated, ?declared⟩
  case created =>
    intro sql h
    exact Table.createSql_eq_ok h
  case inserted =>
    intro a c name i h core
    obtain ⟨sets, inserts⟩ := Action.inserts_of_compile h core
    refine ⟨sets, inserts, ?_⟩
    intro s member default
    exact Target.fallbackSql?_of_default (inserts.values s member) default
  case updated =>
    intro a c name u h core
    obtain ⟨sets, updates⟩ := Action.updates_of_compile h core
    refine ⟨sets, updates, ?_⟩
    intro s member default
    exact Target.fallbackSql?_of_default (updates.values s member) default
  case declared =>
    intro c text
    exact Column.declaredSql?_eq_some_iff

/-- The time at which a guest leaves: that of the entry, unless it is told otherwise. -/
def leaving : Column := ((Column.ofScalar "left" .time).asNullable).withDefault .currentTime

/-- Visits of guests. -/
def visits : Table where
  name := "visits"
  databaseName := none
  columns := [(Column.ofScalar "member" .bool).withDefault (.bool false), leaving]
  distinct := by decide
  finite := by decide

/-- A visit with nothing known of it. -/
def anyVisit : Action := .perform "enter" visits (.insert { fillDefaults := true })

/-- In standard SQL a visit that is entered gets the defaults that its table declares. -/
theorem visits_declare :
    ∃ sql keys c sets, visits.createSql .empty .generic = .ok sql ∧
      sql = "CREATE TABLE \"visits\" (\n    " ++
        String.intercalate ",\n    " ((visits.columns.map fun c =>
          c.lineHead .generic ++ c.defaultClause .generic ++ c.lineTail .generic) ++ keys) ++
        "\n)" ∧
      anyVisit.compile { dialect := .generic } = .ok c ∧
      c.Inserts .generic visits { fillDefaults := true } sets ∧
      (∀ s ∈ sets, s.1.value = .default → s.1.column.fallbackSql? .generic = some s.2) ∧
      ¬ leaving.Withheld .generic ∧ leaving.fallbackSql? .generic = some "CURRENT_TIME" ∧
      leaving.declaredSql? .generic = some "CURRENT_TIME" := by
  obtain ⟨created, inserted, -, declared⟩ :=
    visits.declares_defaults .empty { dialect := .generic }
  obtain ⟨sql, made⟩ : ∃ sql, visits.createSql .empty .generic = .ok sql := ⟨_, rfl⟩
  obtain ⟨c, compiled⟩ : ∃ c, anyVisit.compile { dialect := .generic } = .ok c := ⟨_, rfl⟩
  obtain ⟨keys, sql_eq⟩ := created sql made
  obtain ⟨sets, inserts, filled⟩ := inserted anyVisit c "enter" _ compiled rfl
  have admitted : ¬ leaving.Withheld .generic := by
    rintro ⟨value, -, -, plain⟩
    cases plain
  have fallback : leaving.fallbackSql? .generic = some "CURRENT_TIME" := rfl
  exact ⟨sql, keys, c, sets, made, sql_eq, compiled, inserts, filled, admitted, fallback,
    (declared leaving "CURRENT_TIME").2 (.inl ⟨admitted, fallback⟩)⟩

/-- For MySQL the table declares null where the statement fills in the current time. -/
theorem visits_differ :
    visits.createSql .empty .mysql =
      .ok "CREATE TABLE \x60visits\x60 (\n    \x60member\x60 BOOL NOT NULL DEFAULT FALSE,\n    \x60left\x60 TIME NULL DEFAULT NULL\n)" ∧
    (∃ c, anyVisit.compile {} = .ok c ∧
      c.sql = "INSERT INTO \x60visits\x60 (\x60member\x60, \x60left\x60) VALUES (FALSE, CURTIME())") ∧
    leaving ∈ visits.columns ∧ leaving.declaredSql? .mysql = some "NULL" ∧
    leaving.fallbackSql? .mysql = some "CURTIME()" ∧
    ¬ ∀ text, leaving.declaredSql? .mysql = some text → leaving.fallbackSql? .mysql = some text := by
  have declared : leaving.declaredSql? .mysql = some "NULL" := rfl
  have filled : leaving.fallbackSql? .mysql = some "CURTIME()" := rfl
  refine ⟨by rfl, ⟨_, rfl, by rfl⟩, by decide, declared, filled, ?_⟩
  intro agree
  have same := agree "NULL" declared
  rw [filled] at same
  exact absurd same (by decide)

end Bindery
