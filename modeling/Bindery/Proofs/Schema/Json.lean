import Bindery.Proofs.Json.RoundTrip
import Bindery.Proofs.Outcome
import Bindery.Schema.Json

/-!
# Tables that read back from JSON

A record is written as the fields that are present, and read back by its keys. Every
reader of a definition undoes its writer, and the check of a table that is read finds
nothing in a table that was checked before. So the text of a table denotes the table,
unless a default is a float, whose text is a matter of rounding.

* `Json.record?_present`: the fields of a record, present or not.
* `Column.ofJson?_toJson`, `TableSpec.ofJson?_toJson`: documents of definitions.
* `Table.build_spec`: the check of a table that was checked before.
* `Table.read_toJson`: a table from its text.
-/

namespace Bindery

namespace Json

/-! ## Records -/

/-- The members of a record: its fields that are present. -/
def present (es : List (String × Option Json)) : List (Option String × Json) :=
  es.filterMap fun e => e.2.map fun j => (some e.1, j)

theorem present_cons (key : String) (value : Option Json) (es : List (String × Option Json)) :
    present ((key, value) :: es) = (value.map fun j => (some key, j)).toList ++ present es := by
  cases value <;> rfl

theorem filter_present_of_not_mem {key : String} {es : List (String × Option Json)}
    (absent : key ∉ es.map (·.1)) : (present es).filter (·.1 == some key) = [] := by
  rw [List.filter_eq_nil_iff]
  intro m hm found
  obtain ⟨e, he, hm⟩ := List.mem_filterMap.1 hm
  obtain ⟨j, -, rfl⟩ := Option.map_eq_some_iff.1 hm
  have key_eq : e.1 = key := by simpa using found
  exact absent (key_eq ▸ List.mem_map_of_mem he)

/-- A field of a record is found under its key, if the keys are different. -/
theorem filter_present {es : List (String × Option Json)} (distinct : (es.map (·.1)).Nodup)
    {key : String} {value : Option Json} (h : (key, value) ∈ es) :
    (present es).filter (·.1 == some key) = (value.map fun j => (some key, j)).toList := by
  induction es with
  | nil => cases h
  | cons e es ih =>
    obtain ⟨key', value'⟩ := e
    rw [List.map_cons, List.nodup_cons] at distinct
    rw [present_cons, List.filter_append]
    rcases List.mem_cons.1 h with same | later
    · cases same
      rw [filter_present_of_not_mem distinct.1, List.append_nil]
      cases value <;> simp
    · have apart : key' ≠ key := by
        rintro rfl
        exact distinct.1 (List.mem_map_of_mem (f := (·.1)) later)
      rw [ih distinct.2 later]
      cases value' <;> simp [apart]

theorem member?_present {es : List (String × Option Json)} (distinct : (es.map (·.1)).Nodup)
    {key : String} {value : Option Json} (h : (key, value) ∈ es) :
    member? (present es) key = some value := by
  unfold member?
  rw [filter_present distinct h]
  cases value <;> rfl

/-- The fields of a record under different keys, present or not. -/
theorem record?_present (es : List (String × Option Json)) (distinct : (es.map (·.1)).Nodup) :
    record? (es.map (·.1)) (.object (present es)) = some (es.map (·.2)) := by
  have keyed : (present es).all (·.1.isSome) = true := by
    rw [List.all_eq_true]
    intro m hm
    obtain ⟨e, -, hm⟩ := List.mem_filterMap.1 hm
    obtain ⟨j, -, rfl⟩ := Option.map_eq_some_iff.1 hm
    rfl
  rw [record?, if_pos keyed, List.mapM_map]
  exact mapM_eq_some fun e he => member?_present distinct he

/-! ## Readers that undo their writers -/

/-- Reading undoes writing. -/
def Undoes {α : Type} (decode : Json → Option α) (encode : α → Json) : Prop :=
  ∀ a, decode (encode a) = some a

theorem undoes_asText? : Undoes asText? .text := fun _ => rfl

/-- An optional field is read as it was written, unless null is written for it. -/
theorem Undoes.optional? {α : Type} {decode : Json → Option α} {encode : α → Json}
    (h : Undoes decode encode) (filled : ∀ a, encode a ≠ .null) (value : Option α) :
    optional? decode (value.map encode) = some value := by
  cases value with
  | none => rfl
  | some a =>
    rw [Option.map_some, Json.optional?, h a]
    · rfl
    · exact fun null => filled a null

theorem Undoes.asList? {α : Type} {decode : Json → Option α} {encode : α → Json}
    (h : Undoes decode encode) (as : List α) :
    asList? decode (.array (as.map encode)) = some as := by
  rw [Json.asList?, List.mapM_map]
  have each : as.mapM (decode ∘ encode) = some (as.map id) := mapM_eq_some fun a _ => h a
  rwa [List.map_id] at each

theorem undoes_asUInt32? (n : UInt32) : asUInt32? (.nat n.toNat) = some n := by
  have bound := n.toNat_lt
  rw [asUInt32?, nat, int, asInt?, if_pos (by omega)]
  simp

theorem undoes_asInt64? (n : Int64) : asInt64? (.int n.toInt) = some n := by
  have low := n.le_toInt
  have high := n.toInt_lt
  rw [asInt64?, int, asInt?, if_pos (by omega)]
  simp

end Json

open Json

/-! ## Definitions -/

theorem ScalarType.ofJson?_toJson : Undoes ScalarType.ofJson? ScalarType.toJson := by
  intro t
  cases t with
  | varChar length =>
    show (asUInt32? (.nat length.toNat)).map ScalarType.varChar = _
    rw [undoes_asUInt32?]
    rfl
  | char length =>
    show (asUInt32? (.nat length.toNat)).map ScalarType.char = _
    rw [undoes_asUInt32?]
    rfl
  | _ => rfl

theorem ColumnType.ofJson?_toJson : Undoes ColumnType.ofJson? ColumnType.toJson := by
  intro t
  show (ScalarType.ofJson? t.scalar.toJson).bind _ = _
  rw [ScalarType.ofJson?_toJson]
  rfl

theorem DefaultValue.ofJson?_toJson : Undoes DefaultValue.ofJson? DefaultValue.toJson := by
  intro v
  cases v with
  | int n =>
    show (asInt64? (.int n.toInt)).map DefaultValue.int = _
    rw [undoes_asInt64?]
    rfl
  | _ => rfl

theorem ForeignKey.ofJson?_toJson : Undoes ForeignKey.ofJson? ForeignKey.toJson := fun _ => rfl

/-- The fields of a column. -/
def Column.entries (c : Column) : List (String × Option Json) :=
  [("name", some (.text c.name)), ("db_name", c.databaseName.map .text),
    ("type", some c.type.toJson), ("default", c.default.map DefaultValue.toJson),
    ("references", c.references.map ForeignKey.toJson)]

theorem Column.toJson_eq (c : Column) : c.toJson = .object (present c.entries) := by
  obtain ⟨name, databaseName, type, default, references⟩ := c
  cases databaseName <;> cases default <;> cases references <;> rfl

theorem Column.ofJson?_toJson : Undoes Column.ofJson? Column.toJson := by
  intro c
  have distinct : (c.entries.map (·.1)).Nodup := by simp [Column.entries]
  have read : record? ["name", "db_name", "type", "default", "references"] c.toJson =
      some (c.entries.map (·.2)) := by
    rw [Column.toJson_eq]
    exact record?_present c.entries distinct
  have type := ColumnType.ofJson?_toJson c.type
  have databaseName := undoes_asText?.optional? (fun _ => by simp [text]) c.databaseName
  have default := DefaultValue.ofJson?_toJson.optional?
    (fun v => by cases v <;> simp [DefaultValue.toJson, text, tagged]) c.default
  have references := ForeignKey.ofJson?_toJson.optional?
    (fun _ => by simp [ForeignKey.toJson, fields]) c.references
  unfold Column.ofJson?
  rw [read]
  simp [Column.entries, required?, undoes_asText? c.name, type, databaseName, default, references]

/-- The fields of a table specification. -/
def TableSpec.entries (t : TableSpec) : List (String × Option Json) :=
  [("name", some (.text t.name)), ("db_name", t.databaseName.map .text),
    ("columns", some (.array (t.columns.map Column.toJson)))]

theorem TableSpec.toJson_eq (t : TableSpec) : t.toJson = .object (present t.entries) := by
  obtain ⟨name, databaseName, columns⟩ := t
  cases databaseName <;> rfl

theorem TableSpec.ofJson?_toJson : Undoes TableSpec.ofJson? TableSpec.toJson := by
  intro t
  have distinct : (t.entries.map (·.1)).Nodup := by simp [TableSpec.entries]
  have read : record? ["name", "db_name", "columns"] t.toJson = some (t.entries.map (·.2)) := by
    rw [TableSpec.toJson_eq]
    exact record?_present t.entries distinct
  have databaseName := undoes_asText?.optional? (fun _ => by simp [text]) t.databaseName
  have columns := Column.ofJson?_toJson.asList? t.columns
  unfold TableSpec.ofJson?
  rw [read]
  simp [TableSpec.entries, required?, defaulted?, undoes_asText? t.name, databaseName, columns]

/-! ## Tables -/

/-- Columns with different names and spelled defaults have no fault. -/
theorem columnFault?_eq_none_of {table : String} {earlier : List String} {columns : List Column}
    (distinct : (columns.map (·.name)).Nodup) (apart : ∀ c ∈ columns, c.name ∉ earlier)
    (finite : ∀ c ∈ columns, ∀ d ∈ c.default, d.isFinite = true) :
    columnFault? table earlier columns = none := by
  induction columns generalizing earlier with
  | nil => rfl
  | cons c rest ih =>
    rw [List.map_cons, List.nodup_cons] at distinct
    obtain ⟨fresh, apart_rest⟩ := List.forall_mem_cons.1 apart
    obtain ⟨spelled, finite_rest⟩ := List.forall_mem_cons.1 finite
    have all : c.default.all (·.isFinite) = true := by
      cases value : c.default with
      | none => rfl
      | some d => exact spelled d (by rw [value]; rfl)
    rw [columnFault?, if_neg fresh, if_pos all]
    refine ih distinct.2 ?_ finite_rest
    intro d hd used
    rcases List.mem_append.1 used with used | used
    · exact apart_rest d hd used
    · rw [List.mem_singleton] at used
      exact distinct.1 (used ▸ List.mem_map_of_mem hd)

/-- A table passes the check that it passed before. -/
theorem Table.build_spec (t : Table) : t.spec.build = .ok t := by
  have none : columnFault? t.name [] t.columns = none :=
    columnFault?_eq_none_of t.distinct (by simp) t.finite
  unfold TableSpec.build
  split
  · next fault found => exact absurd (none.symm.trans found) (by simp)
  · rfl

theorem Table.ofJson?_toJson : Undoes Table.ofJson? Table.toJson := by
  intro t
  unfold Table.ofJson? Table.toJson
  rw [TableSpec.ofJson?_toJson]
  show t.spec.build.toOption = some t
  rw [Table.build_spec]
  rfl

/-! ## Texts -/

namespace Json

theorem exactItems_iff {items : List Json} : ExactItems items ↔ ∀ j ∈ items, j.Exact := by
  induction items with
  | nil => simp [ExactItems]
  | cons j items ih => rw [ExactItems, ih, List.forall_mem_cons]

theorem exactMembers_present {es : List (String × Option Json)}
    (each : ∀ e ∈ es, ∀ j, e.2 = some j → j.Exact) : ExactMembers (present es) := by
  induction es with
  | nil => trivial
  | cons e es ih =>
    obtain ⟨key, value⟩ := e
    obtain ⟨first, others⟩ := List.forall_mem_cons.1 each
    cases value with
    | none => exact ih others
    | some j => exact ⟨rfl, first j rfl, ih others⟩

theorem exact_of_map {α : Type} {encode : α → Json} {value : Option α}
    (each : ∀ a, value = some a → (encode a).Exact) :
    ∀ j, value.map encode = some j → j.Exact := by
  intro j hj
  obtain ⟨a, ha, rfl⟩ := Option.map_eq_some_iff.1 hj
  exact each a ha

theorem exact_nat (n : UInt32) : (nat n.toNat).Exact := by
  have bound := n.toNat_lt
  show -9223372036854775808 ≤ (n.toNat : Int) ∧ (n.toNat : Int) ≤ 18446744073709551615
  omega

theorem exact_int (n : Int64) : (int n.toInt).Exact := by
  have low := n.le_toInt
  have high := n.toInt_lt
  show -9223372036854775808 ≤ n.toInt ∧ n.toInt ≤ 18446744073709551615
  omega

theorem exact_tagged {key : String} {j : Json} (exact : j.Exact) : (tagged key j).Exact :=
  ⟨rfl, exact, trivial⟩

end Json

theorem ScalarType.exact_toJson (t : ScalarType) : t.toJson.Exact := by
  cases t with
  | varChar length => exact exact_tagged (exact_nat length)
  | char length => exact exact_tagged (exact_nat length)
  | _ => rfl

theorem ColumnType.exact_toJson (t : ColumnType) : t.toJson.Exact :=
  ⟨rfl, t.scalar.exact_toJson, rfl, trivial, rfl, trivial, rfl, trivial, rfl, trivial, trivial⟩

theorem DefaultValue.exact_toJson {v : DefaultValue} (plain : ∀ x, v ≠ .float x) :
    v.toJson.Exact := by
  cases v with
  | bool b => exact exact_tagged trivial
  | int n => exact exact_tagged (exact_int n)
  | float x => exact absurd rfl (plain x)
  | string s => exact exact_tagged rfl
  | expression sql => exact exact_tagged rfl
  | _ => rfl

theorem ForeignKey.exact_toJson (k : ForeignKey) : k.toJson.Exact :=
  ⟨rfl, rfl, rfl, rfl, trivial⟩

theorem Column.exact_toJson {c : Column} (plain : ∀ x, c.default ≠ some (.float x)) :
    c.toJson.Exact := by
  rw [Column.toJson_eq]
  apply exactMembers_present
  simp only [Column.entries, List.forall_mem_cons]
  refine ⟨?_, exact_of_map fun _ _ => rfl, ?_, exact_of_map ?_,
    exact_of_map fun k _ => k.exact_toJson, by simp⟩
  · rintro _ ⟨⟩
    rfl
  · rintro _ ⟨⟩
    exact c.type.exact_toJson
  · intro v hv
    apply DefaultValue.exact_toJson
    rintro x rfl
    exact plain x hv

theorem TableSpec.exact_toJson {t : TableSpec}
    (plain : ∀ c ∈ t.columns, ∀ x, c.default ≠ some (.float x)) : t.toJson.Exact := by
  rw [TableSpec.toJson_eq]
  apply exactMembers_present
  simp only [TableSpec.entries, List.forall_mem_cons]
  refine ⟨?_, exact_of_map fun _ _ => rfl, ?_, by simp⟩
  · rintro _ ⟨⟩
    rfl
  · rintro _ ⟨⟩
    refine exactItems_iff.2 fun j hj => ?_
    obtain ⟨c, hc, rfl⟩ := List.mem_map.1 hj
    exact Column.exact_toJson (plain c hc)

/-- The text of a table denotes the table, if no default of it is a float. -/
theorem Table.read_toJson (t : Table)
    (plain : ∀ c ∈ t.columns, ∀ x, c.default ≠ some (.float x)) :
    (Json.read? t.toJson.render).bind Table.ofJson? = some t := by
  have exact : t.toJson.Exact := TableSpec.exact_toJson plain
  rw [read?_render exact, Option.bind_some, Table.ofJson?_toJson]

/-- A table with quotes, control characters and letters beyond ASCII in its names and
    defaults, a default that is null and columns without one. -/
def oddities : Table where
  name := "odd\n\"ities\""
  databaseName := some "ódd\x01"
  columns := [.primaryKey "id",
    (Column.ofScalar "no\\te\t" .text).withDefault (.string "'\x1f\x7f'"),
    ((Column.ofScalar "rank" (.varChar 4294967295)).withDefault .null).asNullable,
    (Column.ofScalar "debt" .bigInt).withDefault (.int (-9223372036854775808)),
    ((Column.foreignKey "owner" "user" "id").withDatabaseName "öwner").withDefault
      (.expression "\x00(\"x\")")]
  distinct := by decide
  finite := by decide

theorem oddities_read :
    (∀ c ∈ oddities.columns, ∀ x, c.default ≠ some (.float x)) ∧
      (Json.read? oddities.toJson.render).bind Table.ofJson? = some oddities := by
  have plain : ∀ c ∈ oddities.columns, ∀ x, c.default ≠ some (.float x) := by
    simp [oddities, Column.primaryKey, Column.ofScalar, Column.withDefault, Column.asNullable,
      Column.foreignKey, Column.withDatabaseName]
  exact ⟨plain, Table.read_toJson oddities plain⟩

end Bindery
