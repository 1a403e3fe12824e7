import ConnectionSecurity.Bytes

/-!
# Identifier and length octets

A value of ASN.1 opens with an identifier (class, whether it is constructed, tag number) and a
length. A tag number above 30 follows in groups of seven bits, in at most five octets. A length
below 128 is one octet; a longer one follows in as many octets as the first one says; the first
octet 128 means that the content ends at an end mark instead.
-/

namespace ConnectionSecurity.Asn1

/-- The four classes of tags. -/
inductive TagClass where
  | universal
  | application
  | context
  | privateUse
deriving DecidableEq, Repr

/-- The class that the two highest bits of an octet name. -/
def TagClass.ofOctet (b : UInt8) : TagClass :=
  if b < 0x40 then universal else if b < 0x80 then application else if b < 0xc0 then context
  else privateUse

/-- What kind of value follows. -/
structure Identifier where
  tagClass : TagClass
  constructed : Bool
  number : Nat
deriving DecidableEq, Repr

/-- How the content is delimited. -/
inductive Extent where
  | definite (length : Nat)
  | indefinite
deriving DecidableEq, Repr

/-- The octets in front of a content. -/
structure Header where
  identifier : Identifier
  extent : Extent
deriving DecidableEq, Repr

/-- The groups of a tag number, of which `left` may still come. Only its lowest 32 bits count. -/
def longTag? (number : Nat) : (left : Nat) → Bytes → Option (Nat × Bytes)
  | 0, _ => none
  | _, [] => none
  | left + 1, b :: bs =>
    let number := (number * 128 + b.toNat % 128) % UInt32.size
    if b < 0x80 then some (number, bs) else longTag? number left bs

def identifier? : Bytes → Option (Identifier × Bytes)
  | [] => none
  | b :: bs =>
    let tagClass := TagClass.ofOctet b
    let constructed := b &&& 0x20 != 0
    if b &&& 0x1f == 0x1f then
      (longTag? 0 5 bs).map fun (number, bs) => (⟨tagClass, constructed, number⟩, bs)
    else some (⟨tagClass, constructed, (b &&& 0x1f).toNat⟩, bs)

/-- Read a length. One that 64 bits do not hold is refused; leading zeros are not. -/
def extent? : Bytes → Option (Extent × Bytes)
  | [] => none
  | b :: bs =>
    if b < 0x80 then some (.definite b.toNat, bs)
    else if b == 0x80 then some (.indefinite, bs)
    else if b == 0xff then none
    else
      let count := (b &&& 0x7f).toNat
      let octets := bs.take count
      let length := Bytes.toNat octets
      if octets.length == count && length < UInt64.size then some (.definite length, bs.drop count)
      else none

/-- Read a header. Only a constructed value can end at an end mark. -/
def Header.read? (b : Bytes) : Option (Header × Bytes) := do
  let (identifier, b) ← identifier? b
  let (extent, b) ← extent? b
  if extent == .indefinite && !identifier.constructed then none
  else return ({ identifier, extent }, b)

/-- Split off a content of a given length. -/
def take? (length : Nat) (b : Bytes) : Option (Bytes × Bytes) :=
  if length ≤ b.length then some (b.take length, b.drop length) else none

/-- Read a value with a definite length and leave its content as it is. -/
def definite? (b : Bytes) : Option (Identifier × Bytes × Bytes) := do
  let (h, b) ← Header.read? b
  match h.extent with
  | .indefinite => none
  | .definite length =>
    let (content, rest) ← take? length b
    return (h.identifier, content, rest)

end ConnectionSecurity.Asn1
