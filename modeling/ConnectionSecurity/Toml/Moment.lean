import ConnectionSecurity.Calendar

/-!
# Dates and times as TOML writes them

A date, a time of day, or a date, a separator and a time of day with or without an offset. Seconds
may be left out. The day has to be one of the calendar.

The readers give the normal form of what they read: a `T` between the date and the time, seconds
always, at most nine digits of a second and none for zeros at the end, and a plus sign before an
offset of nothing.
-/

namespace ConnectionSecurity.Toml

open Calendar

/-- Take a date off the front. -/
def date? (cs : List Char) : Option (List Char × List Char) := do
  let (y, rest) ← fixed? 4 cs
  let (m, rest) ← fixed? 2 (← mark? '-' rest)
  let (d, rest) ← fixed? 2 (← mark? '-' rest)
  if isDate y m d then return (cs.take 10, rest) else none

/-- The digits of a second in their normal form, with the point before them. -/
def fraction (digits : List Char) : List Char :=
  let kept := ((digits.take 9).reverse.dropWhile (· == '0')).reverse
  if kept.isEmpty then [] else '.' :: kept

/-- Take a time of day off the front. A leap second is allowed. -/
def timeOfDay? (cs : List Char) : Option (List Char × List Char) := do
  let (h, rest) ← fixed? 2 cs
  let (m, rest) ← fixed? 2 (← mark? ':' rest)
  if 23 < h || 59 < m then none
  match rest with
  | ':' :: rest =>
    let (s, rest) ← fixed? 2 rest
    if 60 < s then none
    match rest with
    | '.' :: rest =>
      let digits := rest.takeWhile Char.isDigit
      if digits.isEmpty then none
      else return (cs.take 8 ++ fraction digits, rest.dropWhile Char.isDigit)
    | rest => return (cs.take 8, rest)
  | rest => return (cs.take 5 ++ [':', '0', '0'], rest)

/-- The offset from universal time that a text writes, of less than a day. -/
def offset? (cs : List Char) : Option (List Char) :=
  match cs with
  | ['Z'] | ['z'] => some ['Z']
  | sign :: cs => do
    let (h, rest) ← fixed? 2 cs
    let (m, rest) ← fixed? 2 (← mark? ':' rest)
    if !rest.isEmpty || 23 < h || 59 < m then none
    if sign == '+' || (sign == '-' && h * 60 + m == 0) then return '+' :: cs
    if sign == '-' then return '-' :: cs else none
  | [] => none

/-- The date, time of day, or both that a token writes. -/
def moment? (token : List Char) : Option (List Char) :=
  match date? token with
  | some (date, []) => some date
  | some (date, sep :: cs) =>
    if sep == 'T' || sep == 't' || sep == ' ' then
      match timeOfDay? cs with
      | some (time, []) => some (date ++ 'T' :: time)
      | some (time, cs) => (offset? cs).map fun offset => date ++ 'T' :: time ++ offset
      | none => none
    else none
  | none =>
    match timeOfDay? token with
    | some (time, []) => some time
    | _ => none

end ConnectionSecurity.Toml
