import ConnectionSecurity.Toml.Value

/-!
# Building tables out of lines

A document names its tables by headers and by dotted names, and each way of naming one limits what
may be added to it later. A table made by a header is complete with that header's lines; one that a
longer header only passes through may still get a header of its own; one made by dotted names takes
further dotted names and no header. A header in double brackets adds an element to an array of
tables, and names that go through such an array mean its last element. Nothing is named twice.
-/

namespace ConnectionSecurity.Toml

/-- How a table came to be. -/
inductive Origin where
  /-- A header names it. -/
  | header
  /-- A longer header passes through it. -/
  | passing
  /-- A dotted name passes through it. -/
  | dotted
deriving DecidableEq, Repr

/-- A table under construction holds these. -/
inductive Draft where
  | value (v : Value)
  | table (origin : Origin) (entries : List (String × Draft))
  /-- An array of tables, the last one first. -/
  | tables (elements : List (List (String × Draft)))
deriving Inhabited

/-- The entries of a table under construction. -/
abbrev Entries := List (String × Draft)

namespace Entries

/-- Put a draft in place of the one that has the name, or at the end. -/
def put (name : String) (d : Draft) : Entries → Entries
  | [] => [(name, d)]
  | (n, old) :: es => if n == name then (n, d) :: es else (n, old) :: put name d es

/-- Open the table that a header names: `array` for double brackets. -/
def openTable (array : Bool) : (path : List String) → Entries → Option Entries
  | [], _ => none
  | name :: path, es =>
    if path.isEmpty then
      match es.lookup name, array with
      | none, false => some (es.put name (.table .header []))
      | none, true => some (es.put name (.tables [[]]))
      | some (.table .passing sub), false => some (es.put name (.table .header sub))
      | some (.tables elements), true => some (es.put name (.tables ([] :: elements)))
      | _, _ => none
    else
      match es.lookup name with
      | none => (openTable array path []).map fun sub => es.put name (.table .passing sub)
      | some (.table origin sub) =>
        (openTable array path sub).map fun sub => es.put name (.table origin sub)
      | some (.tables (last :: before)) =>
        (openTable array path last).map fun last => es.put name (.tables (last :: before))
      | _ => none

/-- Change the table that a header has opened. -/
def within (f : Entries → Option Entries) : (path : List String) → Entries → Option Entries
  | [], es => f es
  | name :: path, es =>
    match es.lookup name with
    | some (.table origin sub) => (within f path sub).map fun sub => es.put name (.table origin sub)
    | some (.tables (last :: before)) =>
      (within f path last).map fun last => es.put name (.tables (last :: before))
    | _ => none

/-- Add a line. `inDotted` says that the table was made by dotted names, as the table that takes
the last part of a dotted name has to be; a name without dots does not ask. -/
def assign (inDotted : Bool) (v : Value) : (path : List String) → Entries → Option Entries
  | [], _ => none
  | name :: path, es =>
    if path.isEmpty then
      if inDotted && (es.lookup name).isNone then some (es.put name (.value v)) else none
    else
      match es.lookup name with
      | none => (assign true v path []).map fun sub => es.put name (.table .dotted sub)
      | some (.table .header _) => none
      | some (.table origin sub) =>
        (assign (origin == .dotted) v path sub).map fun sub => es.put name (.table origin sub)
      | some (.tables (last :: before)) =>
        (assign false v path last).map fun last => es.put name (.tables (last :: before))
      | _ => none

/-- Add the lines of one table in order. -/
def assignAll (lines : List (List String × Value)) (es : Entries) : Option Entries :=
  lines.foldlM (fun es (path, v) => es.assign true v path) es

end Entries

/-! ## The finished table -/

mutual

def Draft.toValue : Draft → Value
  | .value v => v
  | .table _ entries => .table (Draft.valuesOf entries)
  | .tables elements => .array (Draft.tablesOf elements).reverse

/-- The entries of a finished table. -/
def Draft.valuesOf : List (String × Draft) → List (String × Value)
  | [] => []
  | (name, d) :: es => (name, d.toValue) :: valuesOf es

/-- The elements of a finished array of tables. -/
def Draft.tablesOf : List (List (String × Draft)) → List Value
  | [] => []
  | es :: ess => .table (valuesOf es) :: tablesOf ess

end

end ConnectionSecurity.Toml
