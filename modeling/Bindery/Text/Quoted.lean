/-!
# Quoted text

A text between two quote characters, in which the quote character itself is
written twice.

* `double`: the text between the quotes.
* `quoted`: the text with its quotes.
-/

namespace Bindery.Text

/-- A text with every quote character `q` written twice. -/
def double (q : Char) : List Char → List Char
  | [] => []
  | c :: rest => if c = q then q :: q :: double q rest else c :: double q rest

/-- A text between quote characters `q` (in `Dialect::quote_identifier`,
    `SqlValue::to_sql_inline`). -/
def quoted (q : Char) (s : String) : String :=
  String.ofList (q :: (double q s.toList ++ [q]))

end Bindery.Text
