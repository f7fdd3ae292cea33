import Bindery.Action.Reference

/-!
# Statements

A statement is a list of pieces. Names, values and defaults stay as they are
until the text is written for a dialect, and every placeholder carries the
parameter it stands for. What an `SqlWriter` writes is text only; a statement
says of each part of that text what it is.

* `Statement.sql`: the text of a statement.
* `Statement.bindings`: the parameters behind its placeholders, in order.
* `conflict?`: a parameter name that is used with two types.
-/

namespace Bindery

/-- The part of a statement that uses a parameter (`ParamOrigin`). -/
inductive Origin where
  | condition
  | assignment
  | pagination
  deriving DecidableEq

/-- A parameter at a placeholder (`ParamBinding`). -/
structure Binding where
  name : String
  type : ColumnType
  origin : Origin
  deriving DecidableEq

/-- A parameter used in a part of a statement (in `SqlWriter::param`). -/
def Param.bind (p : Param) (origin : Origin) : Binding := ⟨p.name, p.type, origin⟩

/-- A piece of a statement. -/
inductive Piece where
  /-- Words and punctuation of SQL. -/
  | text (s : String)
  /-- A name of a table, a column or an output. -/
  | name (s : String)
  /-- A value as a literal. -/
  | value (v : Value)
  /-- The default of a column. -/
  | fallback (v : DefaultValue)
  /-- SQL written by hand. -/
  | raw (s : String)
  /-- A placeholder. -/
  | slot (b : Binding)
  deriving DecidableEq

/-- The SQL of a piece. -/
def Piece.sql (d : Dialect) : Piece → String
  | .text s => s
  | .name s => d.quote s
  | .value v => v.literal
  | .fallback v => v.sql d
  | .raw s => s
  | .slot _ => d.placeholder

/-- The parameter of a piece. -/
def Piece.binding? : Piece → Option Binding
  | .slot b => some b
  | _ => none

/-- The SQL of a list of pieces. -/
def piecesSql (d : Dialect) (ps : List Piece) : String := String.join (ps.map (Piece.sql d))

/-- A statement. -/
structure Statement where
  pieces : List Piece
  deriving DecidableEq

/-- The text of a statement. -/
def Statement.sql (d : Dialect) (s : Statement) : String := piecesSql d s.pieces

/-- The parameters behind the placeholders, in the order of the text. -/
def Statement.bindings (s : Statement) : List Binding := s.pieces.filterMap Piece.binding?

/-! ## Parameters of one name -/

/-- The parameters of a list without those of a name that came before
    (in `CompiledSql::arguments`). -/
def distinctBindings : List Binding → List Binding
  | [] => []
  | b :: rest => b :: (distinctBindings rest).filter (·.name != b.name)

/-- Whether a parameter has another type than the first of its name
    (in `SqlWriter::record`). -/
def Binding.conflicts (earlier : List Binding) (b : Binding) : Bool :=
  (earlier.find? (·.name == b.name)).any (·.type != b.type)

/-- The first name among the parameters ahead that has another type in front. -/
def conflictFrom? (earlier : List Binding) : List Binding → Option String
  | [] => none
  | b :: rest =>
    if b.conflicts earlier then some b.name else conflictFrom? (earlier ++ [b]) rest

/-- The first name that is used with two types. -/
def conflict? (bindings : List Binding) : Option String := conflictFrom? [] bindings

end Bindery
