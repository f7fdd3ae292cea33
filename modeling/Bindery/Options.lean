import Bindery.Dialect
import Bindery.Name.Words

/-!
# Options

What a build is asked for: the dialect, the spelling of derived names, and the
frame of the emitted code.
-/

namespace Bindery

/-- How derived output names are spelled (`NamingOptions`). -/
structure Naming where
  case : Name.Case := .snake
  /-- Whether the name of the main table leads derived names. -/
  tablePrefix : Bool := false
  deriving DecidableEq

/-- Options of a build (`BuildOptions`). -/
structure Options where
  dialect : Dialect := .mysql
  naming : Naming := {}
  /-- The path of the runtime library in emitted code. -/
  runtimePath : String := "oxide_dal_runtime"
  /-- The first line of emitted code. -/
  header : String := "// Code generated by oxide-dal. DO NOT EDIT."
  deriving DecidableEq

end Bindery
