import Bindery.Scope
import Bindery.Statement.Draft

/-!
# The writing of filters

Columns, fragments and the condition tree of a `WHERE` clause as drafts.
-/

namespace Bindery

open Draft (write)

/-- Writes a column (`SqlWriter::column` in pieces). -/
def Scope.writeColumn (s : Scope) (c : ColumnRef) : Draft Unit := do
  write (← s.columnPieces c)

/-- Writes a placeholder for a parameter (`SqlWriter::param` in pieces). -/
def Param.write (p : Param) (origin : Origin) : Draft Unit := Draft.write [.slot (p.bind origin)]

/-- Writes a part of a fragment. -/
def FragmentPart.write (s : Scope) : FragmentPart → Draft Unit
  | .raw sql => Draft.write [.raw sql]
  | .column c => s.writeColumn c
  | .param p => p.write .condition

/-- Writes the parts of a fragment, one after the other. -/
def writeParts (s : Scope) : List FragmentPart → Draft Unit
  | [] => pure ()
  | part :: rest => do
    part.write s
    writeParts s rest

/-- Writes a fragment (`SqlWriter::fragment` in pieces). -/
def Fragment.write (s : Scope) (f : Fragment) : Draft Unit := writeParts s f.parts

/-- Writes a side of a comparison (`SqlWriter::operand` in pieces). -/
def Operand.write (s : Scope) : Operand → Draft Unit
  | .column c => s.writeColumn c
  | .param p => p.write .condition
  | .literal v => Draft.write [.value v]
  | .raw sql => Draft.write [.raw sql]

/-- Writes the right side of a comparison, if there is one. -/
def writeRight (s : Scope) : Option Operand → Draft Unit
  | none => pure ()
  | some right => do
    write [.text " "]
    right.write s

mutual

/-- Writes a condition (`SqlWriter::condition` in pieces). -/
def Condition.write (s : Scope) : Condition → Draft Unit
  | .compare left op right => do
    left.write s
    Draft.write [.text " ", .text op.sql]
    writeRight s right
  | .fragment f => f.write s
  | .group connective conditions => do
    Draft.write [.text "("]
    writeConditions s connective conditions
    Draft.write [.text ")"]

/-- Writes conditions with a connective between every two
    (`SqlWriter::conditions` in pieces). -/
def writeConditions (s : Scope) (connective : Connective) : List Condition → Draft Unit
  | [] => pure ()
  | [c] => c.write s
  | c :: d :: rest => do
    c.write s
    Draft.write [.text connective.sql]
    writeConditions s connective (d :: rest)

end

/-- Writes a `WHERE` clause, or nothing without conditions
    (`SqlWriter::where_clause` in pieces). -/
def Filter.write (s : Scope) (f : Filter) : Draft Unit :=
  if f.isEmpty then pure ()
  else do
    Draft.write [.text " WHERE "]
    writeConditions s f.connective f.conditions

end Bindery
