import ConnectionSecurity.Toml.Moment
import ConnectionSecurity.Toml.Value

/-!
# Plain values

A document that is read without knowing what should be in it becomes a plain value. Its integers
have to fit a word of 64 bits with a sign. A table whose first name, in the order of names, is the
reserved one stands for the date-time that the text under this name writes; the other entries of
such a table count for nothing.
-/

namespace ConnectionSecurity.Toml

/-- The name reserved for date-times. -/
def momentName : String := "$__toml_private_datetime"

/-- Whether an integer fits a word of 64 bits with a sign. -/
def fitsWord (n : Int) : Bool := Int64.minValue.toInt ≤ n && n ≤ Int64.maxValue.toInt

/-- The entry whose name comes first in the order of names. -/
def firstNamed? : List (String × Value) → Option (String × Value)
  | [] => none
  | e :: es =>
    match firstNamed? es with
    | some f => if f.1 < e.1 then some f else some e
    | none => some e

/-- The value that stands for a date-time in a table, if the table stands for one. -/
def standsForMoment? (entries : List (String × Value)) : Option Value :=
  (firstNamed? entries).bind fun (name, v) => if name == momentName then some v else none

namespace Value

/-- The date-time that a text writes. -/
def momentOfText? : Value → Option Value
  | .text s => (moment? s.toList).map fun normal => .moment (String.ofList normal)
  | _ => none

mutual

/-- The plain value of a value, or `none` if it has none. -/
def plain? : Value → Option Value
  | .integer n => if fitsWord n then some (.integer n) else none
  | .array items => (plainItems? items).map .array
  | .table entries =>
    match standsForMoment? entries with
    | some v => v.momentOfText?
    | none => (plainEntries? entries).map .table
  | v => some v

/-- The plain values of items. -/
def plainItems? : List Value → Option (List Value)
  | [] => some []
  | v :: vs => do return (← plain? v) :: (← plainItems? vs)

/-- The entries with the plain values of their values. -/
def plainEntries? : List (String × Value) → Option (List (String × Value))
  | [] => some []
  | (name, v) :: es => do return (name, ← plain? v) :: (← plainEntries? es)

end

end Value

end ConnectionSecurity.Toml
