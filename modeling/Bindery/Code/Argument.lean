import Bindery.Name.Identifier
import Bindery.Transaction.Plan

/-!
# Arguments of emitted functions

Every parameter becomes an argument. The arguments of a function have different
identifiers, none of which is that of the handle the function runs on.

* `claimArguments`: the arguments for a list of parameters.
* `identifierOf`: the identifier of a parameter.
-/

namespace Bindery.Code

/-- An argument of a function, and the parameter it is for (an entry of `Arguments`). -/
structure Argument where
  source : String
  ident : String
  type : ColumnType
  deriving DecidableEq

/-- The parameter that has an identifier already: the handle, or that of an earlier
    argument (in `Arguments::claim`). -/
def takenBy? (handle : String) (earlier : List Argument) (ident : String) : Option String :=
  if ident = handle then some handle else (earlier.find? (·.ident == ident)).map (·.source)

/-- The arguments for parameters behind earlier ones (`Arguments::claim`). -/
def claimFrom (handle : String) (earlier : List Argument) :
    List Variable → Except Fault (List Argument)
  | [] => .ok earlier
  | v :: rest => do
    let ident ← Name.identifier v.name
    match takenBy? handle earlier ident with
    | some first => .error (.argumentCollision first v.name ident)
    | none => claimFrom handle (earlier ++ [⟨v.name, ident, v.type⟩]) rest

/-- The arguments for a list of parameters, next to the handle (`Arguments::new`,
    `Arguments::claim`). -/
def claimArguments (handle : String) (params : List Variable) : Except Fault (List Argument) :=
  claimFrom handle [] params

/-- The identifier of a parameter; one that is not claimed stands for itself
    (`Arguments::ident`). -/
def identifierOf (args : List Argument) (source : String) : String :=
  ((args.find? (·.source == source)).map (·.ident)).getD source

end Bindery.Code
