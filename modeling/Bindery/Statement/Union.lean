import Bindery.Statement.Select

/-!
# The writing of unions

The branches of a union are settled one by one, each as the select it would be
alone, and put between parentheses. The first branch gives the outputs their
names and types; an output that any branch may lack is outer.

* `Union.write`: the draft of a union, with its outputs as result.
-/

namespace Bindery

open Draft (write fail)

/-- Writes a branch between parentheses. -/
def UnionBranch.write (naming : Naming) (b : UnionBranch) : Draft (List Output) := do
  let (outputs, statement) ← (b.select.write naming b.table).settle
  Draft.write ([.text "("] ++ statement.pieces ++ [.text ")"])
  return outputs

/-- Writes later branches, each behind the mode that joins it to those before,
    and merges their outputs. The first of them has the given number. -/
def writeBranches (naming : Naming) (outputs : List Output) (number : Nat) :
    List (UnionMode × UnionBranch) → Draft (List Output)
  | [] => pure outputs
  | (mode, b) :: rest => do
    write [.text " ", .text mode.sql, .text " "]
    let later ← b.write naming
    if later.length ≠ outputs.length then
      fail (.unionShapeMismatch number outputs.length later.length)
    writeBranches naming (List.zipWith Output.merge outputs later) (number + 1) rest

/-- Writes a union (`write_union` in pieces). -/
def Union.write (naming : Naming) (u : Union) : Draft (List Output) := do
  let (first, later) ← u.split
  let outputs ← first.write naming
  let outputs ← writeBranches naming outputs 2 later
  checkArity u.mode outputs.length
  writeOrder outputs .union u.orderBy
  writePage u.paginated
  return outputs

end Bindery
