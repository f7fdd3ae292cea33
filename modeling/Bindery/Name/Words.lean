import Bindery.Text.LetterCase
import Bindery.Text.Numeral

/-!
# Words of a name

A name in `snake_case` or `camelCase` is a list of lower case words. Words end
at an underscore, a hyphen or a space, and before an upper case letter that
starts a word: one that follows a lower case letter or a digit, or the last of
a run of capitals with a lower case letter behind it, so `userID` is user, id
and `HTTPServer` is http, server.

* `words`: the words of a name.
* `snake`, `camel`, `pascal`, `screaming`: the spellings of a word list.
* `stem`: a name without a trailing word `id`.
-/

namespace Bindery.Name

open Bindery.Text

/-! ## Splitting -/

/-- Whether a character separates words and belongs to none (in `words`). -/
def isSeparator (c : Char) : Bool := c == '_' || c == '-' || c == ' '

/-- Whether an upper case letter starts a word, by the character before it and the
    characters behind it (in `words`). -/
def startsWord (before : Char) (behind : List Char) : Bool :=
  isLower before || isDigit before || (isUpper before && behind.head?.any isLower)

/-- The characters ahead in lower case, cut where words end (the loop of `words`).
    The first segment goes on with the word that `before` belongs to; a segment may
    be empty. -/
def segments (before : Char) : List Char → List (List Char)
  | [] => [[]]
  | c :: behind =>
    if isSeparator c then [] :: segments c behind
    else
      let rest := (segments c behind).modifyHead (toLower c ++ ·)
      if isUpper c && startsWord before behind then [] :: rest else rest

/-- The lower case words of a name (`words`). Nothing starts in the middle of a word
    at its front, so it is cut as if a separator came before it. -/
def words (name : String) : List (List Char) :=
  (segments '_' name.toList).filter (!·.isEmpty)

/-! ## Spellings -/

/-- Words joined by underscores. -/
def joinWords (ws : List (List Char)) : String := String.ofList (List.intercalate ['_'] ws)

/-- A word with its first character in upper case (`capitalize`). -/
def capitalize : List Char → List Char
  | [] => []
  | c :: rest => toUpper c ++ rest

/-- The name in `snake_case` (`to_snake_case`). -/
def snake (name : String) : String := joinWords (words name)

/-- The name in `camelCase` (`to_camel_case`). -/
def camel (name : String) : String :=
  match words name with
  | [] => ""
  | first :: rest => String.ofList (first ++ (rest.map capitalize).flatten)

/-- The name in `PascalCase` (`to_pascal_case`). -/
def pascal (name : String) : String := String.ofList ((words name).map capitalize).flatten

/-- The name in `SCREAMING_SNAKE_CASE` (`to_screaming_snake_case`). -/
def screaming (name : String) : String := String.ofList ((snake name).toList.flatMap toUpper)

/-- The word that names a key column. -/
def keyWord : List Char := ['i', 'd']

/-- A list of words without a last word `id`, unless that is the only word
    (in `strip_id_suffix`). -/
def dropKeyWord (ws : List (List Char)) : List (List Char) :=
  if 1 < ws.length ∧ ws.getLast? = some keyWord then ws.dropLast else ws

/-- The name in `snake_case` without a trailing word `id`: `user` for `userId`
    (`strip_id_suffix`). A bare `id` is kept. -/
def stem (name : String) : String := joinWords (dropKeyWord (words name))

/-- The case of derived output names (`NameCase`). -/
inductive Case where
  /-- Words joined by underscores. -/
  | snake
  /-- Words run together, each but the first capitalized. -/
  | camel
  deriving DecidableEq

/-- A name in the given case (`NameCase::apply`). -/
def Case.apply : Case → String → String
  | .snake, name => Name.snake name
  | .camel, name => Name.camel name

end Bindery.Name
