import Bindery.Access.HostType
import Bindery.Schema.ColumnType

/-!
# Types in emitted code

The host type of a column type, and the spelling of host types: results own
their values, parameters borrow texts and bytes.
-/

namespace Bindery

/-- The host type of values of a scalar type (in `scalar`). -/
def ScalarType.hostType (unsigned : Bool) : ScalarType → HostType
  | .bigInt => .int (if unsigned then .u64 else .i64)
  | .int => .int (if unsigned then .u32 else .i32)
  | .smallInt => .int (if unsigned then .u16 else .i16)
  | .tinyInt => .int (if unsigned then .u8 else .i8)
  | .double => .double
  | .float => .single
  | .bool => .bool
  | .varChar _ | .char _ | .text => .string
  | .blob => .bytes
  | .date => .date
  | .time => .time
  | .dateTime => .timestamp

/-- The host type of values of a column type (in `scalar`). -/
def ColumnType.hostType (t : ColumnType) : HostType :=
  if t.nullable then .option (t.scalar.hostType t.unsigned) else t.scalar.hostType t.unsigned

namespace HostType

/-- A type of the calendar library, which the runtime library hands on. -/
def calendarText (runtime label : String) : String := runtime ++ "::chrono::" ++ label

/-- The spelling of a type that owns its values (`value_type`). -/
def ownedText (runtime : String) : HostType → String
  | .date => calendarText runtime "NaiveDate"
  | .time => calendarText runtime "NaiveTime"
  | .timestamp => calendarText runtime "NaiveDateTime"
  | .option t => "Option<" ++ t.ownedText runtime ++ ">"
  | t => t.label

/-- The spelling of a type that borrows texts and bytes (`param_type`). -/
def borrowedText (runtime : String) : HostType → String
  | .string => "&str"
  | .bytes => "&[u8]"
  | .option t => "Option<" ++ t.borrowedText runtime ++ ">"
  | t => t.ownedText runtime

end HostType

end Bindery
