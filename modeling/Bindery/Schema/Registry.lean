import Bindery.Schema.Table

/-!
# Registries

A registry holds tables by name, in the order of their names. Names are ordered
by their characters, which is also the order of their bytes.

* `Registry.register`: the registry with one table more.
* `Registry.get`: the table of a name.
-/

namespace Bindery

/-- Registered tables in the order of their names (`TableRegistry`). -/
structure Registry where
  tables : List Table

namespace Registry

/-- The registry without tables (`TableRegistry::new`). -/
def empty : Registry := ⟨[]⟩

/-- A table put in its place among ordered tables. -/
def place (t : Table) : List Table → List Table
  | [] => [t]
  | u :: rest => if t.name < u.name then t :: u :: rest else u :: place t rest

/-- The table of a name. -/
def get? (r : Registry) (name : String) : Option Table := r.tables.find? (·.name == name)

/-- The table of a name, or the fault that there is none (`TableRegistry::get`). -/
def get (r : Registry) (name : String) : Except Fault Table :=
  match r.get? name with
  | some t => .ok t
  | none => .error (.unknownTable name)

/-- The registry with one table more; its name must be free
    (`TableRegistry::register`). -/
def register (r : Registry) (t : Table) : Except Fault Registry :=
  if (r.get? t.name).isSome then .error (.duplicateTable t.name)
  else .ok ⟨place t r.tables⟩

/-- The registry with the tables of a list, registered in order
    (in `TableRegistry::from_json`). -/
def registerAll (r : Registry) : List Table → Except Fault Registry
  | [] => .ok r
  | t :: rest => do (← r.register t).registerAll rest

/-- The number of registered tables (`TableRegistry::len`). -/
def size (r : Registry) : Nat := r.tables.length

end Registry

end Bindery
