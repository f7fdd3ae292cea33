import Bindery.Action.Reference
import Bindery.Name.Words
import Bindery.Statement.Basic

/-!
# Result shapes

The outputs of a select, and the typed fields that a row of it has. Outputs and
fields are found by name: exactly, or else in the other spelling of its words.

* `Name.index?`: the position of a name in a list of names.
* `Shape.ofOutputs`: the fields of a list of outputs.
-/

namespace Bindery

/-- The position of a name: of the name itself, or else of the first name with the
    same words (in `find_output`, `ResultShape::field`). -/
def Name.index? (names : List String) (wanted : String) : Option Nat :=
  (names.findIdx? (· == wanted)).or (names.findIdx? fun n => snake n == snake wanted)

/-- An output of a select (`SelectedColumn`). What is selected is a list of pieces in
    the draft of a statement, and text in a statement that is written. -/
structure Output (ε : Type := List Piece) where
  name : String
  /-- What is selected. -/
  expression : ε
  /-- Whether the statement names the output. -/
  named : Bool
  /-- The column the output shows. -/
  source : Option ColumnRef
  type : ColumnType
  /-- Whether a row may lack the output, whatever its type says. -/
  outer : Bool

/-- The pieces of an output in a select list. -/
def Output.item (o : Output) : List Piece :=
  if o.named then o.expression ++ [.text " AS ", .name o.name] else o.expression

/-- The output of a name, in either spelling (`find_output`). -/
def findOutput? {ε : Type} (outputs : List (Output ε)) (name : String) : Option (Output ε) :=
  (Name.index? (outputs.map (·.name)) name).bind (outputs[·]?)

/-- A field of a result row (`ResultField`). -/
structure Field where
  name : String
  source : Option ColumnRef
  type : ColumnType
  deriving DecidableEq

/-- The fields of a result row, in the order of the columns (`ResultShape`). -/
structure Shape where
  fields : List Field
  deriving DecidableEq

/-- The field of an output, nullable if the output may be lacking
    (in `ResultShape::build`). -/
def Output.field {ε : Type} (o : Output ε) : Field :=
  ⟨o.name, o.source, { o.type with nullable := o.type.nullable || o.outer }⟩

/-- The shape of rows with the given outputs (`ResultShape::build`). -/
def Shape.ofOutputs {ε : Type} (outputs : List (Output ε)) : Shape := ⟨outputs.map Output.field⟩

/-- The field of a name, in either spelling, and its position (`ResultShape::field`). -/
def Shape.field? (s : Shape) (name : String) : Option (Nat × Field) :=
  (Name.index? (s.fields.map (·.name)) name).bind fun i => (s.fields[i]?).map (i, ·)

end Bindery
