import ConnectionSecurity.Bytes

/-!
# Base 64

Four characters stand for three bytes. The last four may end in one or two equals signs and then
stand for two bytes or one; the bits that are left over have to be zero. So every byte string has
exactly one written form, and nothing else is read.
-/

namespace ConnectionSecurity.Base64

/-- The six bits that a character stands for. -/
def sextet? (c : Char) : Option Nat :=
  if 'A' ≤ c ∧ c ≤ 'Z' then some (c.toNat - 'A'.toNat)
  else if 'a' ≤ c ∧ c ≤ 'z' then some (c.toNat - 'a'.toNat + 26)
  else if '0' ≤ c ∧ c ≤ '9' then some (c.toNat - '0'.toNat + 52)
  else if c = '+' then some 62
  else if c = '/' then some 63
  else none

/-- The bytes of a last group, which may be padded. -/
def lastGroup? (a b c d : Char) : Option Bytes := do
  let x ← sextet? a
  let y ← sextet? b
  if d = '=' then
    if c = '=' then
      if y % 16 = 0 then return [UInt8.ofNat (x * 4 + y / 16)] else none
    else
      let z ← sextet? c
      if z % 4 = 0 then
        return [UInt8.ofNat (x * 4 + y / 16), UInt8.ofNat (y * 16 + z / 4)]
      else none
  else
    let z ← sextet? c
    let w ← sextet? d
    return [UInt8.ofNat (x * 4 + y / 16), UInt8.ofNat (y * 16 + z / 4), UInt8.ofNat (z * 64 + w)]

/-- The bytes of a group that others follow. -/
def group? (a b c d : Char) : Option Bytes := if d = '=' then none else lastGroup? a b c d

/-- The bytes that a text stands for. -/
def decode? : List Char → Option Bytes
  | [] => some []
  | [a, b, c, d] => lastGroup? a b c d
  | a :: b :: c :: d :: rest =>
    match group? a b c d, decode? rest with
    | some bytes, some more => some (bytes ++ more)
    | _, _ => none
  | _ => none

end ConnectionSecurity.Base64
