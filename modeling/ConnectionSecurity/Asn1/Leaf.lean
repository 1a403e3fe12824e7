import ConnectionSecurity.Asn1.Header
import ConnectionSecurity.Asn1.Time

/-!
# The kinds of leaves

A value with no values in it is a leaf. Its tag number names its kind, and some kinds restrict the
bytes: a truth value is one octet, a text has the characters of its set and a time has a form. A
text, a bit string and an enumerated number stand in a primitive value; the other kinds do not
mind, and neither does a number without a kind.
-/

namespace ConnectionSecurity.Asn1

/-! ## Sets of characters -/

/-- The ASCII characters of a byte string, if it holds nothing else. -/
def ascii? (b : Bytes) : Option (List Char) :=
  if b.all (· < 0x80) then some (b.map fun x => Char.ofNat x.toNat) else none

/-- Whether a byte string consists of ASCII characters of a class. -/
def consistsOf (p : Char → Bool) (b : Bytes) : Bool :=
  match ascii? b with
  | some cs => cs.all p
  | none => false

/-- A character of a number with blanks. -/
def isNumeric (c : Char) : Bool := c.isDigit || c == ' '

/-- A character of the printable set. -/
def isPrintable (c : Char) : Bool := c.isAlphanum || " \x27()+,-./:=?".toList.contains c

/-- A character that is no control before the blank. -/
def isVisible (c : Char) : Bool := ' ' ≤ c

/-- Whether a byte string is text in units of two octets, where two units make a pair only
together. -/
def isWide : Bytes → Bool
  | [] => true
  | [_] => false
  | high :: _ :: rest =>
    if 0xd8 ≤ high && high < 0xdc then
      match rest with
      | low :: _ :: rest => 0xdc ≤ low && low < 0xe0 && isWide rest
      | _ => false
    else !(0xdc ≤ high && high < 0xe0) && isWide rest

/-- The test on the bytes of a kind of text; `none` for a number of another kind. A text in units of
two octets has to be UTF-8 besides, and one in units of four may hold any bytes. -/
def textTest? : (number : Nat) → Option (Bytes → Bool)
  | 7 | 22 | 25 | 27 => some (consistsOf fun _ => true)
  | 12 => some (·.text?.isSome)
  | 18 => some (consistsOf isNumeric)
  | 19 => some (consistsOf isPrintable)
  | 20 | 21 | 26 => some (consistsOf isVisible)
  | 28 => some fun _ => true
  | 30 => some fun b => isWide b && b.text?.isSome
  | _ => none

/-! ## Leaves -/

/-- Whether the content of a universal leaf is one of its kind. -/
def leafFits (h : Header) (content : Bytes) : Bool :=
  let primitive := !h.identifier.constructed
  match textTest? h.identifier.number with
  | some test => primitive && test content
  | none =>
    match h.identifier.number with
    | 1 => h.extent == .definite 1
    | 3 => primitive && !content.isEmpty
    | 10 => primitive && content.toNat < UInt32.size
    | 23 => ((ascii? content).bind Time.short?).isSome
    | 24 => ((ascii? content).bind Time.long?).isSome
    | _ => true

end ConnectionSecurity.Asn1
