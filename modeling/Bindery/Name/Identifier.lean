import Bindery.Fault
import Bindery.Name.Words

/-!
# Identifiers

Names as identifiers of the emitted Rust code. A name is respelled in the case
its place asks for and must then be an ASCII identifier; a reserved word is
escaped, as a raw identifier where the language allows that and by an
underscore where it does not.

* `identifier`: a name as an item, field or argument name.
* `typeName`: a name as part of a type name.
-/

namespace Bindery.Name

/-- Words that are written as raw identifiers (`KEYWORDS`). -/
def keywords : List String :=
  ["abstract", "as", "async", "await", "become", "box", "break", "const", "continue", "do",
   "dyn", "else", "enum", "extern", "false", "final", "fn", "for", "gen", "if", "impl", "in",
   "let", "loop", "macro", "match", "mod", "move", "mut", "override", "priv", "pub", "ref",
   "return", "static", "struct", "trait", "true", "try", "type", "typeof", "unsafe", "unsized",
   "use", "virtual", "where", "while", "yield"]

/-- Words that have no raw form (`RESERVED`). -/
def reservedWords : List String := ["crate", "self", "Self", "super", "_"]

/-- Whether a character may start an identifier: an ASCII letter or underscore. -/
def startsIdentifier (c : Char) : Bool := c.isAlpha || c == '_'

/-- Whether a character may stand in an identifier. -/
def continuesIdentifier (c : Char) : Bool := c.isAlphanum || c == '_'

/-- Whether a list of characters is an ASCII identifier. -/
def isIdentifier : List Char → Bool
  | [] => false
  | c :: rest => startsIdentifier c && rest.all continuesIdentifier

/-- An identifier with a reserved word escaped (in `checked`). -/
def escapeReserved (spelled : String) : String :=
  if spelled ∈ reservedWords then spelled ++ "_"
  else if spelled ∈ keywords then "r#" ++ spelled
  else spelled

/-- The escaped form of `spelled`, the respelling of `name` (`checked`). -/
def checked (spelled name : String) : Except Fault String :=
  if isIdentifier spelled.toList then .ok (escapeReserved spelled)
  else .error (.invalidIdentifier name)

/-- A name as an identifier in `snake_case` (`to_snake_case`, then `checked`). -/
def identifier (name : String) : Except Fault String := checked (snake name) name

/-- A name as a type name in `PascalCase` (`to_pascal_case`, then `checked`). -/
def typeName (name : String) : Except Fault String := checked (pascal name) name

end Bindery.Name
