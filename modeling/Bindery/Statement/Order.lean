import Bindery.Statement.Filter
import Bindery.Writer.Basic

/-!
# The writing of orders and pages

An order key of a select is an output or a column in scope. The rows of a union
have outputs only, so there a column stands for the output that shows it.
-/

namespace Bindery

open Draft (write)

/-- Writes an output as an order key: by name if it has one in the statement,
    and always in a union. -/
def Output.writeKey (o : Output) : OrderScope → Draft Unit
  | .select _ => if o.named then write [.name o.name] else write o.expression
  | .union => write [.name o.name]

/-- Writes what an order key refers to. -/
def OrderTarget.write (outputs : List Output) (scope : OrderScope) : OrderTarget → Draft Unit
  | .output name =>
    match findOutput? outputs name with
    | some o => o.writeKey scope
    | none => .fail (.unknownOrderKey name)
  | .column c =>
    match scope with
    | .select s => s.writeColumn c
    | .union =>
      match outputs.find? (·.source == some c) with
      | some o => Draft.write [.name o.name]
      | none => .fail (.unknownOrderKey c.column)
  | .raw sql => Draft.write [.raw sql]

/-- Writes an order key. -/
def OrderKey.write (outputs : List Output) (scope : OrderScope) (k : OrderKey) : Draft Unit := do
  k.target.write outputs scope
  if k.descending then Draft.write [.text " DESC"]

/-- Writes an `ORDER BY` clause, or nothing without keys (`SqlWriter::order_by` in
    pieces). -/
def writeOrder (outputs : List Output) (scope : OrderScope) : List OrderKey → Draft Unit
  | [] => pure ()
  | keys => do
    write [.text " ORDER BY "]
    Draft.separated ", " (keys.map (OrderKey.write outputs scope))

/-- Writes the bounds of a page, if one is asked for (`SqlWriter::paginate` in
    pieces). -/
def writePage (paginated : Bool) : Draft Unit := do
  if paginated then
    write [.text " LIMIT ", .slot (limitParam.bind .pagination), .text " OFFSET ",
      .slot (offsetParam.bind .pagination)]

end Bindery
