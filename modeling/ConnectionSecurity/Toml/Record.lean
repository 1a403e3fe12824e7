import ConnectionSecurity.Toml.Value

/-!
# Records in documents

A record has named fields in a fixed order. It is written as a table of the fields that are set. It
is read from a table by name, where names it does not know count for nothing, or from an array by
position, where fields beyond the end of the array are not set. A date or time counts as a record
too, one with no field that anybody knows.

A choice between plain alternatives is written as a text. It is read from a text, or from a table
whose only name is the alternative and whose value is empty.
-/

namespace ConnectionSecurity.Toml

/-- The fields that a record is read from. -/
inductive Fields where
  | named (entries : List (String × Value))
  | positional (items : List Value)

namespace Fields

/-- The fields of a value, if a record can be read from it. -/
def of? : Value → Option Fields
  | .table entries => some (.named entries)
  | .array items => some (.positional items)
  | .moment _ => some (.named [])
  | _ => none

/-- The value of a field, given its position and its name. -/
def get? (fields : Fields) (index : Nat) (name : String) : Option Value :=
  match fields with
  | .named entries => entries.lookup name
  | .positional items => items[index]?

/-- A field that has to be set. -/
def required (fields : Fields) (index : Nat) (name : String) (read : Value → Option α) : Option α :=
  (fields.get? index name).bind read

/-- A field that takes a default if it is not set. -/
def withDefault (fields : Fields) (index : Nat) (name : String) (read : Value → Option α)
    (default : α) : Option α :=
  match fields.get? index name with
  | none => some default
  | some v => read v

/-- A field that may be absent. -/
def optional (fields : Fields) (index : Nat) (name : String) (read : Value → Option α) :
    Option (Option α) :=
  fields.withDefault index name (fun v => (read v).map some) none

/-- Whether no more fields are given than a record of `count` has. -/
def fits (fields : Fields) (count : Nat) : Bool :=
  match fields with
  | .named _ => true
  | .positional items => items.length ≤ count

end Fields

namespace Value

def text? : Value → Option String
  | .text s => some s
  | _ => none

def boolean? : Value → Option Bool
  | .boolean b => some b
  | _ => none

/-- The word of 32 bits that an integer stands for. -/
def word? : Value → Option UInt32
  | .integer n => if 0 ≤ n ∧ n.toNat < UInt32.size then some (UInt32.ofNat n.toNat) else none
  | _ => none

def texts? : Value → Option (List String)
  | .array items => items.mapM text?
  | _ => none

/-- Whether a value is a table or an array with nothing in it. -/
def isNothing : Value → Bool
  | .table [] => true
  | .array [] => true
  | _ => false

/-- The alternative that a value names. -/
def choice? (read : String → Option α) : Value → Option α
  | .text s => read s
  | .table [(name, v)] => if v.isNothing then read name else none
  | _ => none

/-- A table of the fields that are set. -/
def ofFields (fields : List (String × Option Value)) : Value :=
  .table (fields.filterMap fun (name, v) => v.map fun v => (name, v))

end Value

end ConnectionSecurity.Toml
