import Bindery.Json.Decode
import Bindery.Json.Printer
import Bindery.Json.Reader
import Bindery.Options
import Bindery.Schema.Registry

/-!
# Definitions in JSON

Tables and options are exchanged as JSON documents. A record is written as an
object with its fields in a fixed order, absent optional fields left out.

* `TableSpec.toJson`, `TableSpec.ofJson?`: table specifications.
* `Registry.load`: the registry of a JSON array of tables.
* `Options.load?`: the options of a JSON text; absent fields have defaults.
-/

namespace Bindery

open Json

/-! ## Types -/

/-- A scalar type as a document (`Serialize` of `ScalarType`). -/
def ScalarType.toJson : ScalarType → Json
  | .bigInt => .text "big_int"
  | .int => .text "int"
  | .smallInt => .text "small_int"
  | .tinyInt => .text "tiny_int"
  | .double => .text "double"
  | .float => .text "float"
  | .bool => .text "bool"
  | .varChar length => .tagged "var_char" (.nat length.toNat)
  | .char length => .tagged "char" (.nat length.toNat)
  | .text => .text "text"
  | .date => .text "date"
  | .time => .text "time"
  | .dateTime => .text "date_time"
  | .blob => .text "blob"

/-- The scalar type a document denotes (`Deserialize` of `ScalarType`). -/
def ScalarType.ofJson? (j : Json) : Option ScalarType := do
  let (tag, payload) ← j.variant?
  match tag with
  | "big_int" => noPayload? .bigInt payload
  | "int" => noPayload? .int payload
  | "small_int" => noPayload? .smallInt payload
  | "tiny_int" => noPayload? .tinyInt payload
  | "double" => noPayload? .double payload
  | "float" => noPayload? .float payload
  | "bool" => noPayload? .bool payload
  | "var_char" => (required? asUInt32? payload).map .varChar
  | "char" => (required? asUInt32? payload).map .char
  | "text" => noPayload? .text payload
  | "date" => noPayload? .date payload
  | "time" => noPayload? .time payload
  | "date_time" => noPayload? .dateTime payload
  | "blob" => noPayload? .blob payload
  | _ => none

/-- A column type as a document (`Serialize` of `ColumnType`). -/
def ColumnType.toJson (t : ColumnType) : Json :=
  .fields [("scalar", t.scalar.toJson), ("unsigned", .bool t.unsigned),
    ("nullable", .bool t.nullable), ("primary_key", .bool t.primaryKey),
    ("auto_increment", .bool t.autoIncrement)]

/-- The column type a document denotes (`Deserialize` of `ColumnType`). -/
def ColumnType.ofJson? (j : Json) : Option ColumnType := do
  match ← j.record? ["scalar", "unsigned", "nullable", "primary_key", "auto_increment"] with
  | [scalar, unsigned, nullable, primaryKey, autoIncrement] =>
    return {
      scalar := ← required? ScalarType.ofJson? scalar
      unsigned := ← defaulted? false asBool? unsigned
      nullable := ← defaulted? false asBool? nullable
      primaryKey := ← defaulted? false asBool? primaryKey
      autoIncrement := ← defaulted? false asBool? autoIncrement }
  | _ => none

/-! ## Columns -/

/-- A default as a document (`Serialize` of `DefaultValue`). -/
def DefaultValue.toJson : DefaultValue → Json
  | .null => .text "null"
  | .bool b => .tagged "boolean" (.bool b)
  | .int n => .tagged "integer" (.int n.toInt)
  | .float x => .tagged "float" (.number (.real x))
  | .string s => .tagged "string" (.text s)
  | .expression sql => .tagged "expression" (.text sql)
  | .currentDate => .text "current_date"
  | .currentTime => .text "current_time"
  | .currentDateTime => .text "current_date_time"

/-- The default a document denotes (`Deserialize` of `DefaultValue`). -/
def DefaultValue.ofJson? (j : Json) : Option DefaultValue := do
  let (tag, payload) ← j.variant?
  match tag with
  | "null" => noPayload? .null payload
  | "boolean" => (required? asBool? payload).map .bool
  | "integer" => (required? asInt64? payload).map .int
  | "float" => (required? asDouble? payload).map .float
  | "string" => (required? asText? payload).map .string
  | "expression" => (required? asText? payload).map .expression
  | "current_date" => noPayload? .currentDate payload
  | "current_time" => noPayload? .currentTime payload
  | "current_date_time" => noPayload? .currentDateTime payload
  | _ => none

/-- A foreign key target as a document (`Serialize` of `ForeignRef`). -/
def ForeignKey.toJson (k : ForeignKey) : Json :=
  .fields [("table", .text k.table), ("column", .text k.column)]

/-- The foreign key target a document denotes (`Deserialize` of `ForeignRef`). -/
def ForeignKey.ofJson? (j : Json) : Option ForeignKey := do
  match ← j.record? ["table", "column"] with
  | [table, column] =>
    return { table := ← required? asText? table, column := ← required? asText? column }
  | _ => none

/-- An optional field as a list of members: none if it is absent. -/
def optionalField {α : Type} (key : String) (encode : α → Json) : Option α → List (String × Json)
  | none => []
  | some a => [(key, encode a)]

/-- A column as a document (`Serialize` of `ColumnDef`). -/
def Column.toJson (c : Column) : Json :=
  .fields ([("name", .text c.name)] ++ optionalField "db_name" .text c.databaseName
    ++ [("type", c.type.toJson)] ++ optionalField "default" DefaultValue.toJson c.default
    ++ optionalField "references" ForeignKey.toJson c.references)

/-- The column a document denotes (`Deserialize` of `ColumnDef`). -/
def Column.ofJson? (j : Json) : Option Column := do
  match ← j.record? ["name", "db_name", "type", "default", "references"] with
  | [name, databaseName, type, default, references] =>
    return {
      name := ← required? asText? name
      databaseName := ← optional? asText? databaseName
      type := ← required? ColumnType.ofJson? type
      default := ← optional? DefaultValue.ofJson? default
      references := ← optional? ForeignKey.ofJson? references }
  | _ => none

/-! ## Tables -/

/-- A table specification as a document (`Serialize` of `TableBuilder`). -/
def TableSpec.toJson (t : TableSpec) : Json :=
  .fields ([("name", .text t.name)] ++ optionalField "db_name" .text t.databaseName
    ++ [("columns", .array (t.columns.map Column.toJson))])

/-- The table specification a document denotes (`Deserialize` of `TableBuilder`). -/
def TableSpec.ofJson? (j : Json) : Option TableSpec := do
  match ← j.record? ["name", "db_name", "columns"] with
  | [name, databaseName, columns] =>
    return {
      name := ← required? asText? name
      databaseName := ← optional? asText? databaseName
      columns := ← defaulted? [] (asList? Column.ofJson?) columns }
  | _ => none

/-- The table a document denotes; a specification with a fault denotes none
    (`TableDef::try_from`). -/
def Table.ofJson? (j : Json) : Option Table := do (← TableSpec.ofJson? j).build.toOption

/-- A table as a document (`TableBuilder::from`). -/
def Table.toJson (t : Table) : Json := t.spec.toJson

/-- A failure to load definitions (`LoadError`). -/
inductive LoadFault where
  /-- The text is no JSON document of the right form. -/
  | malformed
  /-- The definitions do not go together. -/
  | fault (f : Fault)
  deriving DecidableEq

/-- The registry of a JSON array of tables (`TableRegistry::from_json`). -/
def Registry.load (text : String) : Except LoadFault Registry :=
  match (Json.read? text).bind (asList? Table.ofJson?) with
  | none => .error .malformed
  | some tables => (Registry.empty.registerAll tables).mapError .fault

/-! ## Options -/

/-- The case of derived names a document denotes (`Deserialize` of `NameCase`). -/
def Name.Case.ofJson? (j : Json) : Option Name.Case := do
  let (tag, payload) ← j.variant?
  match tag with
  | "snake" => noPayload? .snake payload
  | "camel" => noPayload? .camel payload
  | _ => none

/-- The case of derived names as a document (`Serialize` of `NameCase`). -/
def Name.Case.toJson : Name.Case → Json
  | .snake => .text "snake"
  | .camel => .text "camel"

/-- The spelling of derived names a document denotes (`Deserialize` of
    `NamingOptions`). -/
def Naming.ofJson? (j : Json) : Option Naming := do
  match ← j.record? ["case", "table_prefix"] with
  | [case, tablePrefix] =>
    return {
      case := ← defaulted? .snake Name.Case.ofJson? case
      tablePrefix := ← defaulted? false asBool? tablePrefix }
  | _ => none

/-- The spelling of derived names as a document (`Serialize` of `NamingOptions`). -/
def Naming.toJson (n : Naming) : Json :=
  .fields [("case", n.case.toJson), ("table_prefix", .bool n.tablePrefix)]

/-- The dialect a document denotes (`Deserialize` of `DialectKind`). -/
def Dialect.ofJson? (j : Json) : Option Dialect := do
  let (tag, payload) ← j.variant?
  match tag with
  | "mysql" => noPayload? .mysql payload
  | "generic" => noPayload? .generic payload
  | _ => none

/-- The options a document denotes (`Deserialize` of `BuildOptions`). -/
def Options.ofJson? (j : Json) : Option Options := do
  match ← j.record? ["dialect", "naming", "runtime_crate", "header"] with
  | [dialect, naming, runtimePath, header] =>
    let standard : Options := {}
    return {
      dialect := ← defaulted? standard.dialect Dialect.ofJson? dialect
      naming := ← defaulted? standard.naming Naming.ofJson? naming
      runtimePath := ← defaulted? standard.runtimePath asText? runtimePath
      header := ← defaulted? standard.header asText? header }
  | _ => none

/-- Options as a document (`Serialize` of `BuildOptions`). -/
def Options.toJson (o : Options) : Json :=
  .fields [("dialect", .text o.dialect.name), ("naming", o.naming.toJson),
    ("runtime_crate", .text o.runtimePath), ("header", .text o.header)]

/-- The options of a JSON text (`BuildOptions::from_json`). -/
def Options.load? (text : String) : Option Options := (Json.read? text).bind Options.ofJson?

end Bindery
