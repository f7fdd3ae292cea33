import Bindery.Action.Reference

/-!
# Conditions

The tree behind a `WHERE` clause: comparisons and fragments, combined by a
connective and grouped to any depth.
-/

namespace Bindery

/-- A comparison operator (`Operator`). The last two stand behind their only operand. -/
inductive Operator where
  | eq
  | notEq
  | lt
  | ltEq
  | gt
  | gtEq
  | like
  | isNull
  | isNotNull
  deriving DecidableEq

/-- The SQL of an operator (`Operator::to_sql`). -/
def Operator.sql : Operator → String
  | .eq => "="
  | .notEq => "<>"
  | .lt => "<"
  | .ltEq => "<="
  | .gt => ">"
  | .gtEq => ">="
  | .like => "LIKE"
  | .isNull => "IS NULL"
  | .isNotNull => "IS NOT NULL"

/-- A side of a comparison (`Operand`). -/
inductive Operand where
  | column (c : ColumnRef)
  | param (p : Param)
  | literal (v : Value)
  /-- SQL taken as it is. -/
  | raw (sql : String)
  deriving DecidableEq

/-- How the conditions of a clause combine (`Connective`). -/
inductive Connective where
  | and
  | or
  deriving DecidableEq

/-- The SQL between two conditions (`Connective::to_sql`). -/
def Connective.sql : Connective → String
  | .and => " AND "
  | .or => " OR "

/-- A condition of a `WHERE` clause (`Condition`). -/
inductive Condition where
  /-- A comparison; the right side is written whenever it is given. -/
  | compare (left : Operand) (op : Operator) (right : Option Operand)
  | fragment (f : Fragment)
  /-- Conditions between parentheses. -/
  | group (connective : Connective) (conditions : List Condition)

namespace Condition

/-- A column compared with a parameter (`Condition::param`). -/
def byParam (c : ColumnRef) (op : Operator) (p : Param) : Condition :=
  .compare (.column c) op (some (.param p))

/-- A column equal to a parameter (`Condition::eq`). -/
def equals (c : ColumnRef) (p : Param) : Condition := byParam c .eq p

/-- A column compared with a value (`Condition::literal`). -/
def byValue (c : ColumnRef) (op : Operator) (v : Value) : Condition :=
  .compare (.column c) op (some (.literal v))

/-- A column without a value (`Condition::is_null`). -/
def isNull (c : ColumnRef) : Condition := .compare (.column c) .isNull none

end Condition

/-- A `WHERE` clause (`WhereClause`). Without conditions it restricts nothing. -/
structure Filter where
  connective : Connective := .and
  conditions : List Condition := []

/-- A clause that is a single fragment (`WhereClause::raw`). -/
def Filter.ofFragment (f : Fragment) : Filter := { conditions := [.fragment f] }

/-- Whether a clause has no conditions (`WhereClause::is_empty`). -/
def Filter.isEmpty (f : Filter) : Bool := f.conditions.isEmpty

end Bindery
