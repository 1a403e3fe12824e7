/-!
# ASCII character classes

The classes that key rules and method names are stated in. Every one of them holds ASCII characters
only; a letter of another script is in none.
-/

namespace ConnectionSecurity.Text

/-- The value of a hexadecimal digit in either case. -/
def hexDigit? (c : Char) : Option Nat :=
  if '0' ≤ c ∧ c ≤ '9' then some (c.toNat - '0'.toNat)
  else if 'a' ≤ c ∧ c ≤ 'f' then some (c.toNat - 'a'.toNat + 10)
  else if 'A' ≤ c ∧ c ≤ 'F' then some (c.toNat - 'A'.toNat + 10)
  else none

/-- A hexadecimal digit in either case. -/
def isHexDigit (c : Char) : Bool := (hexDigit? c).isSome

/-- A visible ASCII character. The blank is not one. -/
def isGraphic (c : Char) : Bool := '!' ≤ c && c ≤ '~'

/-- A text with its ASCII capitals lowered and all else kept. -/
def lowered (s : String) : String := String.ofList (s.toList.map Char.toLower)

/-- Whether two texts agree but for the case of ASCII letters. -/
def sameLetters (s t : String) : Bool := lowered s == lowered t

end ConnectionSecurity.Text
