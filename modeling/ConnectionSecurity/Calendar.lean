/-!
# The calendar

The months and their days, and the readers of fixed-width numbers that written dates are made of.
-/

namespace ConnectionSecurity.Calendar

/-- Every fourth year is a leap year, but of the full centuries only every fourth. -/
def isLeapYear (y : Nat) : Bool := (y % 4 == 0 && y % 100 != 0) || y % 400 == 0

/-- The days of a month; none for a number that is no month. -/
def daysOfMonth (y m : Nat) : Nat :=
  match m with
  | 1 | 3 | 5 | 7 | 8 | 10 | 12 => 31
  | 4 | 6 | 9 | 11 => 30
  | 2 => if isLeapYear y then 29 else 28
  | _ => 0

/-- Whether a month has a day of this number. -/
def isDate (y m d : Nat) : Bool := 1 ≤ d && d ≤ daysOfMonth y m

/-- The number that exactly `n` decimal digits at the front stand for. -/
def fixed? (n : Nat) (cs : List Char) : Option (Nat × List Char) :=
  let ds := cs.take n
  if ds.length == n && ds.all Char.isDigit then
    some (ds.foldl (fun v c => v * 10 + (c.toNat - '0'.toNat)) 0, cs.drop n)
  else none

/-- A character that has to come next. -/
def mark? (c : Char) : List Char → Option (List Char)
  | d :: cs => if c == d then some cs else none
  | [] => none

end ConnectionSecurity.Calendar
