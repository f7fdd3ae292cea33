import Bindery.Json.Decode
import Bindery.Value.Basic

/-!
# SQL values in JSON

A value is a choice: `"null"`, or an object that names the kind and holds the
value. A float that is not finite is written as null and cannot be read back.
-/

namespace Bindery

open Json

/-- A value as a JSON document (`Serialize` of `SqlValue`). -/
def Value.toJson : Value → Json
  | .null => .text "null"
  | .bool b => .tagged "bool" (.bool b)
  | .int n => .tagged "int" (.int n.toInt)
  | .float x => .tagged "float" (.number (.real x))
  | .text s => .tagged "text" (.text s)
  | .blob bytes => .tagged "blob" (.array (bytes.map fun b => .nat b.toNat))

/-- The value a JSON document denotes (`Deserialize` of `SqlValue`). -/
def Value.ofJson? (j : Json) : Option Value := do
  let (tag, payload) ← j.variant?
  match tag with
  | "null" => noPayload? .null payload
  | "bool" => (required? asBool? payload).map .bool
  | "int" => (required? asInt64? payload).map .int
  | "float" => (required? asDouble? payload).map .float
  | "text" => (required? asText? payload).map .text
  | "blob" => (required? (asList? asUInt8?) payload).map .blob
  | _ => none

end Bindery
