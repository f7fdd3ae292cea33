import Bindery.Json.Basic

/-!
# Decoding JSON values

The reading of a document as data of a known type. Nothing is converted: a
number is no text, and a whole number has no fraction.

* `Json.record?`: the fields of a record, by key or by position.
* `Json.variant?`: an alternative of a choice, with its payload.
-/

namespace Bindery

open Number (Double)

namespace Json

/-! ## Scalars -/

/-- The text of a string. -/
def asText? : Json → Option String
  | .string s => s
  | _ => none

/-- The value of a boolean. -/
def asBool? : Json → Option Bool
  | .bool b => some b
  | _ => none

/-- The value of an integer in a range. -/
def asInt? (low high : Int) : Json → Option Int
  | .number (.int n) => if low ≤ n ∧ n ≤ high then some n else none
  | _ => none

/-- The value of a signed 64 bit integer. -/
def asInt64? (j : Json) : Option Int64 :=
  (j.asInt? (-9223372036854775808) 9223372036854775807).map Int64.ofInt

/-- The value of an unsigned 64 bit integer. -/
def asUInt64? (j : Json) : Option UInt64 :=
  (j.asInt? 0 18446744073709551615).map fun n => UInt64.ofNat n.toNat

/-- The value of an unsigned 32 bit integer. -/
def asUInt32? (j : Json) : Option UInt32 :=
  (j.asInt? 0 4294967295).map fun n => UInt32.ofNat n.toNat

/-- The value of a byte. -/
def asUInt8? (j : Json) : Option UInt8 := (j.asInt? 0 255).map fun n => UInt8.ofNat n.toNat

/-- The value of a number as a double. -/
def asDouble? : Json → Option Double
  | .number (.int n) => some (.ofInt n)
  | .number (.real x) => some x
  | _ => none

/-- The items of an array, each decoded. -/
def asList? {α : Type} (item : Json → Option α) : Json → Option (List α)
  | .array items => items.mapM item
  | _ => none

/-! ## Records -/

/-- The value of a key among members that have it at most once. The outer
    option fails on a repeated key. -/
def member? (members : List (Option String × Json)) (key : String) : Option (Option Json) :=
  match members.filter (·.1 == some key) with
  | [] => some none
  | [(_, value)] => some (some value)
  | _ => none

/-- The fields of a record, absent ones as `none`. A record is an object, in
    which unknown keys are ignored and known ones may not repeat, or an array of
    the leading fields. -/
def record? (keys : List String) : Json → Option (List (Option Json))
  | .object members =>
    if members.all (·.1.isSome) then keys.mapM (member? members) else none
  | .array items =>
    if items.length ≤ keys.length then
      some (items.map some ++ List.replicate (keys.length - items.length) none)
    else none
  | _ => none

/-- A required field. -/
def required? {α : Type} (decode : Json → Option α) (field : Option Json) : Option α :=
  field.bind decode

/-- A field that may be absent and then has a default; null is not absence. -/
def defaulted? {α : Type} (default : α) (decode : Json → Option α) : Option Json → Option α
  | none => some default
  | some j => decode j

/-- A field that may be absent; null counts as absence. -/
def optional? {α : Type} (decode : Json → Option α) : Option Json → Option (Option α)
  | none => some none
  | some .null => some none
  | some j => (decode j).map some

/-! ## Choices -/

/-- An alternative of a choice: its name alone, or an object with the name as
    its only key and the payload as value. -/
def variant? : Json → Option (String × Option Json)
  | .string (some s) => some (s, none)
  | .object [(some key, payload)] => some (key, some payload)
  | _ => none

/-- Accepts the payload of an alternative without data. -/
def noPayload? {α : Type} (value : α) : Option Json → Option α
  | none => some value
  | some .null => some value
  | some _ => none

end Json

end Bindery
