import ConnectionSecurity.Asn1.Element

/-!
# Certificates

An X.509 certificate is a sequence of what is certified, a signature algorithm and a signature.
`Certificate.read?` goes through all of it: version, serial number, names, validity, public key and
extensions. A sequence, a time and a truth value are recognised by the tag number alone, whatever
their class and whether they are constructed. What follows the last expected value inside a sequence
does not count, except behind the list of extensions.
-/

namespace ConnectionSecurity

/-- What is certified about a key, as far as it is read. -/
structure Certificate where
  /-- The version as it is encoded, one less than it is called. -/
  version : Nat
  serial : Bytes
  notBefore : Asn1.Time
  notAfter : Asn1.Time
  /-- The object identifiers of the extensions, encoded. -/
  extensions : List Bytes
deriving Repr

namespace Certificate

open Asn1

/-! ## Values by tag number -/

def sequence? (b : Bytes) : Option (Bytes × Bytes) := do
  let (id, content, rest) ← definite? b
  if id.number == 16 then return (content, rest) else none

/-- An unsigned integer in as few octets as it needs, of at most 32 bits. -/
def word? (b : Bytes) : Option Nat := do
  let (id, content, _) ← definite? b
  if id.number != 2 || id.constructed then none
  match content with
  | [] => none
  | [x] => if x < 0x80 then return x.toNat else none
  | x :: y :: more =>
    if x == 0 then
      if y < 0x80 || 4 < (y :: more).length then none else return Bytes.toNat content
    else if 0x80 ≤ x || 4 < content.length then none
    else return Bytes.toNat content

def integer? (b : Bytes) : Option (Bytes × Bytes) := do
  let (h, b) ← Header.read? b
  let (content, rest) ← content? h b
  if h.identifier.number == 2 then return (content, rest) else none

/-- The content of a primitive value of any kind. -/
def primitive? (b : Bytes) : Option (Bytes × Bytes) := do
  let (id, content, rest) ← definite? b
  if id.constructed then none else return (content, rest)

/-- The number of zero bits at the end of an octet. -/
def trailingZeros (x : UInt8) : Nat :=
  if x == 0 then 8 else ((List.range 8).find? x.toNat.testBit).getD 8

/-- Whether a content is that of a bit string: the number of unused bits, and octets that end in as
many zero bits. -/
def isBits : Bytes → Bool
  | [] => false
  | unused :: bits =>
    match bits.getLast? with
    | some last => unused.toNat ≤ trailingZeros last
    | none => unused == 0

def bitString? (b : Bytes) : Option Bytes := do
  let (id, content, rest) ← definite? b
  if id.number == 3 && !id.constructed && isBits content then return rest else none

/-! ## Parts of a certificate -/

/-- The version, in a context tag of its own; the first version where none is named. -/
def version? (b : Bytes) : Option (Nat × Bytes) :=
  if b.isEmpty then some (0, b)
  else do
    let (id, content, rest) ← definite? b
    if id.number != 0 then return (0, b)
    if id.tagClass == .context then return (← word? content, rest) else none

/-- An algorithm: its object identifier, and perhaps one value as its parameters. -/
def algorithm? (b : Bytes) : Option Bytes := do
  let (inside, rest) ← sequence? b
  let (_, inside) ← primitive? inside
  if inside.isEmpty then return rest
  let _ ← definite? inside
  return rest

/-- A time of the calendar in either form. The long form ends in a `Z` and has no comma. -/
def time? (b : Bytes) : Option (Time × Bytes) := do
  let (id, content, rest) ← definite? b
  let cs ← ascii? content
  let t ←
    match id.number with
    | 23 => Time.short? cs
    | 24 => if cs.getLast? == some 'Z' && !cs.contains ',' then Time.long? cs else none
    | _ => none
  if t.isReal then return (t, rest) else none

/-- An extension: its object identifier, perhaps whether it is critical, and its value. -/
def extension? (b : Bytes) : Option (Bytes × Bytes) := do
  let (inside, rest) ← sequence? b
  let (oid, inside) ← primitive? inside
  let (id, content, more) ← definite? inside
  let inside ←
    if id.number == 1 then if content.length == 1 then some more else none
    else some inside
  let (id, _, _) ← definite? inside
  if id.number == 4 && !id.constructed then return (oid, rest) else none

/-- The extensions of a list, to its end. -/
def extensionList? : (fuel : Nat) → Bytes → Option (List Bytes)
  | _, [] => some []
  | 0, _ => none
  | fuel + 1, b =>
    match extension? b with
    | none => none
    | some (oid, rest) => (extensionList? fuel rest).map (oid :: ·)

/-- The extensions behind the public key; there may be none. Nothing may follow their sequence,
which the length of the value around it has no say in. -/
def extensions? (b : Bytes) : Option (List Bytes) :=
  if b.isEmpty then some []
  else do
    let (h, b) ← Header.read? b
    if h.extent == .indefinite || h.identifier.number != 3 then none
    let (inside, rest) ← sequence? b
    if rest.isEmpty then extensionList? inside.length inside else none

/-- An identifier of issuer or subject, which may be missing: a bit string in a context tag. -/
def uniqueId? (number : Nat) (b : Bytes) : Option Bytes :=
  if b.isEmpty then some b
  else do
    let (h, _) ← Header.read? b
    if h.identifier.number != number then return b
    let (id, content, rest) ← definite? b
    if id.tagClass == .context && !id.constructed && isBits content then return rest else none

/-- What is certified. -/
def certified? (b : Bytes) : Option Certificate := do
  let (version, b) ← version? b
  let (serial, b) ← integer? b
  let b ← algorithm? b
  let (_, b) ← sequence? b
  let (validity, b) ← sequence? b
  let (notBefore, validity) ← time? validity
  let (notAfter, _) ← time? validity
  let (_, b) ← sequence? b
  let (key, b) ← sequence? b
  let key ← algorithm? key
  let _ ← bitString? key
  let b ← uniqueId? 1 b
  let b ← uniqueId? 2 b
  let extensions ← extensions? b
  return { version, serial, notBefore, notAfter, extensions }

/-- Read a certificate. What follows it does not count. -/
def read? (b : Bytes) : Option Certificate := do
  let (inside, _) ← sequence? b
  let (certified, inside) ← sequence? inside
  let certificate ← certified? certified
  let inside ← algorithm? inside
  let _ ← bitString? inside
  return certificate

end Certificate

end ConnectionSecurity
