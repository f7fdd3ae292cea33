import Bindery.Schema.ColumnType
import Bindery.Text.Quoted

/-!
# SQL dialects

What differs between databases: the quote character of identifiers, the
functions for the current date and time, and the spelling of column types and
modifiers in a table definition.
-/

namespace Bindery

/-- A dialect of SQL (`DialectKind`). -/
inductive Dialect where
  /-- Identifiers between backticks, `CURDATE()` and its relatives. -/
  | mysql
  /-- Standard SQL: identifiers between double quotes. -/
  | generic
  deriving DecidableEq

namespace Dialect

/-- The name of the dialect (`Dialect::name`). -/
def name : Dialect → String
  | .mysql => "mysql"
  | .generic => "generic"

/-- The quote character of identifiers (`Dialect::identifier_quote`). -/
def quoteChar : Dialect → Char
  | .mysql => '\x60'
  | .generic => '"'

/-- The placeholder of a parameter (`Dialect::parameter_placeholder`). -/
def placeholder (_ : Dialect) : String := "?"

/-- An identifier between quotes, a quote inside written twice
    (`Dialect::quote_identifier`). -/
def quote (d : Dialect) (identifier : String) : String := Text.quoted d.quoteChar identifier

/-- An expression with an output name (`Dialect::as_alias`). -/
def asAlias (d : Dialect) (expression outputName : String) : String :=
  expression ++ " AS " ++ d.quote outputName

/-- The expression for the current date (`Dialect::current_date`). -/
def currentDate : Dialect → String
  | .mysql => "CURDATE()"
  | .generic => "CURRENT_DATE"

/-- The expression for the current time (`Dialect::current_time`). -/
def currentTime : Dialect → String
  | .mysql => "CURTIME()"
  | .generic => "CURRENT_TIME"

/-- The expression for the current date and time (`Dialect::current_datetime`). -/
def currentDateTime : Dialect → String
  | .mysql => "NOW()"
  | .generic => "CURRENT_TIMESTAMP"

/-- A column type in a table definition (`Dialect::column_type`). -/
def columnType : Dialect → ScalarType → String
  | _, .bigInt => "BIGINT"
  | .mysql, .int => "INT"
  | .generic, .int => "INTEGER"
  | _, .smallInt => "SMALLINT"
  | .mysql, .tinyInt => "TINYINT"
  | .generic, .tinyInt => "SMALLINT"
  | .mysql, .double => "DOUBLE"
  | .generic, .double => "DOUBLE PRECISION"
  | .mysql, .float => "FLOAT"
  | .generic, .float => "REAL"
  | .mysql, .bool => "BOOL"
  | .generic, .bool => "BOOLEAN"
  | _, .varChar length => "VARCHAR(" ++ Text.ofNat length.toNat ++ ")"
  | _, .char length => "CHAR(" ++ Text.ofNat length.toNat ++ ")"
  | _, .text => "TEXT"
  | _, .date => "DATE"
  | _, .time => "TIME"
  | .mysql, .dateTime => "DATETIME"
  | .generic, .dateTime => "TIMESTAMP"
  | _, .blob => "BLOB"

/-- Whether integer columns can be unsigned (`Dialect::supports_unsigned`). -/
def supportsUnsigned : Dialect → Bool
  | .mysql => true
  | .generic => false

/-- The modifier of a column that the database numbers (`Dialect::auto_increment`). -/
def autoIncrement : Dialect → String
  | .mysql => "AUTO_INCREMENT"
  | .generic => "GENERATED BY DEFAULT AS IDENTITY"

/-- Whether a table definition may have an expression as a default
    (`Dialect::expression_defaults`). -/
def expressionDefaults : Dialect → Bool
  | .mysql => false
  | .generic => true

end Dialect

end Bindery
