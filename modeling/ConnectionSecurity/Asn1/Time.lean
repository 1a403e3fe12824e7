import ConnectionSecurity.Calendar

/-!
# Times in ASN.1

The short form has a year of two digits, the long form one of four. Both go down to minutes or
seconds. The short form ends in a zone. The long form may have a fraction of a second and may end in
a zone.

A reader checks the range of every part but the offset of the zone. Whether the time is one of the
calendar is a question of its own, `Time.isReal`.
-/

namespace ConnectionSecurity.Asn1

/-- The zone that a time is given in. -/
inductive Zone where
  /-- None is named. -/
  | unnamed
  | universal
  /-- Before or behind universal time. -/
  | offset (hours minutes : Nat)
deriving DecidableEq, Repr

/-- A moment, to the second. -/
structure Time where
  year : Nat
  month : Nat
  day : Nat
  hour : Nat
  minute : Nat
  second : Nat
  zone : Zone := .unnamed
deriving DecidableEq, Repr

/-- The hours that a zone can be away from universal time, besides minutes. -/
def Zone.hourLimit : Nat := 25

/-- Whether a zone is within the limit. -/
def Zone.isReal : Zone → Bool
  | offset hours minutes => hours ≤ hourLimit && minutes ≤ 59
  | _ => true

namespace Time

/-- Whether every part is in its range, whatever the length of the month. -/
def inRange (t : Time) : Bool :=
  t.month ≤ 12 && t.day ≤ 31 && t.hour ≤ 23 && t.minute ≤ 59 && t.second ≤ 59

/-- Whether the calendar has the date and the zone is within its limit. -/
def isReal (t : Time) : Bool := Calendar.isDate t.year t.month t.day && t.zone.isReal

/-- Read month to second behind the year. The seconds may be left out before a single character. -/
def afterYear? (year : Nat) (cs : List Char) : Option (Time × List Char) := do
  let (month, cs) ← Calendar.fixed? 2 cs
  let (day, cs) ← Calendar.fixed? 2 cs
  let (hour, cs) ← Calendar.fixed? 2 cs
  let (minute, cs) ← Calendar.fixed? 2 cs
  let (second, cs) ←
    match cs with
    | [] => none
    | [_] => some (0, cs)
    | _ => Calendar.fixed? 2 cs
  let t : Time := { year, month, day, hour, minute, second }
  if t.inRange then return (t, cs) else none

/-- A zone: a `Z`, or an offset in two digits for the hours and two for the minutes. -/
def zone? : List Char → Option Zone
  | ['Z'] => some .universal
  | sign :: cs => do
    let (hours, cs) ← Calendar.fixed? 2 cs
    let (minutes, cs) ← Calendar.fixed? 2 cs
    if cs.isEmpty && (sign == '+' || sign == '-') then return .offset hours minutes else none
  | [] => none

/-- A zone or nothing. -/
def zoneIfAny? (cs : List Char) : Option Zone := if cs.isEmpty then some .unnamed else zone? cs

/-- The short form. Years below 50 are of the century that began with the year 2000. -/
def short? (cs : List Char) : Option Time := do
  let (yy, cs) ← Calendar.fixed? 2 cs
  let (t, cs) ← afterYear? (if yy < 50 then 2000 + yy else 1900 + yy) cs
  return { t with zone := ← zone? cs }

/-- The digits of a fraction and what follows them: at most three digits before a zone, even none,
and one to four at the end. -/
def behindFraction? (cs : List Char) : Option (List Char) :=
  let count := (cs.takeWhile Char.isDigit).length
  match cs.dropWhile Char.isDigit with
  | [] => if 1 ≤ count && count ≤ 4 then some [] else none
  | rest => if count ≤ 3 then some rest else none

/-- The long form. A point or a comma begins a fraction. -/
def long? (cs : List Char) : Option Time := do
  let (year, cs) ← Calendar.fixed? 4 cs
  let (t, cs) ← afterYear? year cs
  let cs ←
    match cs with
    | '.' :: cs | ',' :: cs => behindFraction? cs
    | cs => some cs
  return { t with zone := ← zoneIfAny? cs }

end Time

end ConnectionSecurity.Asn1
