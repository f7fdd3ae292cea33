import Bindery.Number.Binary

/-!
# JSON values

A JSON document as data. Numbers are integers where they are written as such
and fit 64 bits, and doubles otherwise. Two things can be well formed and yet
denote nothing: a string whose escapes leave a surrogate unpaired, and a number
beyond the range of doubles. Both may stand where nobody asks for their value.
-/

namespace Bindery

open Number (Double)

/-- A number of a JSON document (`serde_json::Number`). -/
inductive JsonNumber where
  /-- A whole number between the least signed and the greatest unsigned 64 bit
      integer. -/
  | int (n : Int)
  /-- Any other number. -/
  | real (x : Double)
  /-- A number beyond the range of doubles. -/
  | huge
  deriving DecidableEq

/-- A JSON document (`serde_json::Value`). Object members keep their order and may
    repeat a key. -/
inductive Json where
  | null
  | bool (b : Bool)
  | number (n : JsonNumber)
  /-- A string, unless its escapes denote no text. -/
  | string (s : Option String)
  | array (items : List Json)
  | object (members : List (Option String × Json))

namespace Json

/-- A text as a document. -/
def text (s : String) : Json := .string (some s)

/-- An integer as a document. -/
def int (n : Int) : Json := .number (.int n)

/-- A natural number as a document. -/
def nat (n : Nat) : Json := .int n

/-- An object with the given members. -/
def fields (members : List (String × Json)) : Json :=
  .object (members.map fun (k, v) => (some k, v))

/-- An object with a single member. -/
def tagged (key : String) (value : Json) : Json := .object [(some key, value)]

end Json

end Bindery
