/-!
# TOML values

A document is a table: names with values in the order they were written, no name twice. Numbers
other than integers keep their written form and date-times have a normal one, since nothing here
computes with them.
-/

namespace ConnectionSecurity.Toml

/-- A value of a document. -/
inductive Value where
  | text (s : String)
  | integer (n : Int)
  | float (written : String)
  | boolean (b : Bool)
  /-- A date, a time, or both, with or without an offset. -/
  | moment (normal : String)
  | array (items : List Value)
  | table (entries : List (String × Value))
deriving Repr, Inhabited

namespace Value

/-- A value that a header introduces when it is written, in place of a line of its own. -/
def isTable : Value → Bool
  | .table _ => true
  | _ => false

end Value

/-- A reader takes a value off the front of a text, or refuses. -/
abbrev Reader (α : Type) := List Char → Option (α × List Char)

end ConnectionSecurity.Toml
