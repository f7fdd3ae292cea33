import Bindery.Calendar
import Bindery.Value.Basic

/-!
# Host types

The types that emitted code has for parameters and result fields, the values
they hold, and the passage between those and SQL values.

* `HostType.encode`: the SQL value of a host value.
* `HostType.decode?`: the host value of an SQL value, if it fits the type.
-/

namespace Bindery

open Number (Double Single)

/-! ## Integers -/

/-- An integer type. -/
inductive IntType where
  | i8
  | i16
  | i32
  | i64
  | u8
  | u16
  | u32
  | u64
  deriving DecidableEq

/-- The least integer of the type. -/
def IntType.least : IntType → Int
  | .i8 => -128
  | .i16 => -32768
  | .i32 => -2147483648
  | .i64 => -9223372036854775808
  | .u8 | .u16 | .u32 | .u64 => 0

/-- The greatest integer of the type. -/
def IntType.greatest : IntType → Int
  | .i8 => 127
  | .i16 => 32767
  | .i32 => 2147483647
  | .i64 => 9223372036854775807
  | .u8 => 255
  | .u16 => 65535
  | .u32 => 4294967295
  | .u64 => 18446744073709551615

/-- The name of the type (`FromSqlValue::TYPE_NAME`). -/
def IntType.label : IntType → String
  | .i8 => "i8"
  | .i16 => "i16"
  | .i32 => "i32"
  | .i64 => "i64"
  | .u8 => "u8"
  | .u16 => "u16"
  | .u32 => "u32"
  | .u64 => "u64"

/-- Whether the type has an integer. -/
def IntType.Contains (t : IntType) (n : Int) : Prop := t.least ≤ n ∧ n ≤ t.greatest

instance (t : IntType) (n : Int) : Decidable (t.Contains n) := by
  unfold IntType.Contains; infer_instance

/-- An integer of the type. -/
structure IntType.Member (t : IntType) where
  val : Int
  isMember : t.Contains val
  deriving DecidableEq

/-- An integer as a member of the type, if it is one. -/
def IntType.of? (t : IntType) (n : Int) : Option t.Member :=
  if h : t.Contains n then some ⟨n, h⟩ else none

/-- A 64 bit word as an unsigned integer. -/
def IntType.ofWord (n : UInt64) : IntType.u64.Member where
  val := n.toNat
  isMember := by
    have := n.toNat_lt
    simp only [Contains, least, greatest]
    omega

/-- The greatest integer of an SQL value. -/
def greatestStored : Int := 9223372036854775807

/-- The SQL value of an integer: as text if it is too large for one
    (`ToSqlValue::to_sql_value`). -/
def IntType.encode {t : IntType} (n : t.Member) : Value :=
  if n.val ≤ greatestStored then .int (.ofInt n.val) else .text (Text.ofInt n.val)

/-- The integer of an SQL value (`FromSqlValue::from_sql_value`,
    `impl_from_sql_int`). A truth value counts as zero or one, and a type with
    integers too large for an SQL integer also reads text. -/
def IntType.decode? (t : IntType) : Value → Option t.Member
  | .int n => t.of? n.toInt
  | .bool b => t.of? (if b then 1 else 0)
  | .text s =>
    if greatestStored < t.greatest then (Text.readUnsigned? s.toList).bind fun n => t.of? n
    else none
  | _ => none

/-! ## All types -/

/-- A type of emitted code. -/
inductive HostType where
  | int (t : IntType)
  | bool
  | double
  | single
  | string
  | bytes
  | date
  | time
  | timestamp
  /-- Any SQL value. -/
  | value
  /-- A value of a type, or none for null. -/
  | option (t : HostType)
  deriving DecidableEq

namespace HostType

/-- The values of a type. -/
def Carrier : HostType → Type
  | .int t => t.Member
  | .bool => Bool
  | .double => Double
  | .single => Single
  | .string => String
  | .bytes => List UInt8
  | .date => Date
  | .time => TimeOfDay
  | .timestamp => Timestamp
  | .value => Value
  | .option t => Option t.Carrier

/-- The name of a type in messages; an optional type has the name of the type itself
    (`FromSqlValue::TYPE_NAME`). -/
def label : HostType → String
  | .int t => t.label
  | .bool => "bool"
  | .double => "f64"
  | .single => "f32"
  | .string => "String"
  | .bytes => "Vec<u8>"
  | .date => "NaiveDate"
  | .time => "NaiveTime"
  | .timestamp => "NaiveDateTime"
  | .value => "SqlValue"
  | .option t => t.label

/-- The SQL value of a host value (`ToSqlValue::to_sql_value`). -/
def encode : (t : HostType) → t.Carrier → Value
  | .int _, n => IntType.encode n
  | .bool, b => .bool b
  | .double, x => .float x
  | .single, x => .float x.toDouble
  | .string, s => .text s
  | .bytes, bs => .blob bs
  | .date, d => .text d.text
  | .time, t => .text t.text
  | .timestamp, t => .text t.text
  | .value, v => v
  | .option _, none => .null
  | .option t, some x => t.encode x

/-- The truth value of an SQL value; the integers zero and one count
    (`bool::from_sql_value`). -/
def decodeBool? : Value → Option Bool
  | .bool b => some b
  | .int n => if n = 0 then some false else if n = 1 then some true else none
  | _ => none

/-- The double of an SQL value; an integer is rounded (`f64::from_sql_value`). -/
def decodeDouble? : Value → Option Double
  | .float x => some x
  | .int n => some (.ofInt n.toInt)
  | _ => none

/-- The single precision number of an SQL value, which is rounded
    (`f32::from_sql_value`). -/
def decodeSingle? : Value → Option Single
  | .float x => some x.toSingle
  | .int n => some (.ofInt n.toInt)
  | _ => none

/-- The text of an SQL value (`String::from_sql_value`). -/
def decodeText? : Value → Option String
  | .text s => some s
  | _ => none

/-- The bytes of an SQL value; a text has its encoding (`Vec::from_sql_value`). -/
def decodeBytes? : Value → Option (List UInt8)
  | .blob bs => some bs
  | .text s => some s.toUTF8.data.toList
  | _ => none

/-- The host value of an SQL value, if it fits the type
    (`FromSqlValue::from_sql_value`). -/
def decode? : (t : HostType) → Value → Option t.Carrier
  | .int t, v => t.decode? v
  | .bool, v => decodeBool? v
  | .double, v => decodeDouble? v
  | .single, v => decodeSingle? v
  | .string, v => decodeText? v
  | .bytes, v => decodeBytes? v
  | .date, v => (decodeText? v).bind Date.read?
  | .time, v => (decodeText? v).bind TimeOfDay.read?
  | .timestamp, v => (decodeText? v).bind Timestamp.read?
  | .value, v => some v
  | .option _, .null => some none
  | .option t, v => (t.decode? v).map some

end HostType

end Bindery
