import ConnectionSecurity.Asn1.Leaf

/-!
# Values as trees

A value is a tree: a sequence or a set has values in it, everything else is a leaf with bytes in it.
The bytes of the kinds of leaves are checked, those of a value of a class other than the universal
one are not.

Where a content ends is found first, without looking at what it is. There an end mark is any value
with the tag number zero and nothing in it; the last two octets before the end are taken for it.

Values nest at most fifty deep. `element?` recurses on how many levels are left, `passContent` on
how many contents without a length may still stand in each other.
-/

namespace ConnectionSecurity.Asn1

/-- How deep values may nest, the outermost counted. -/
def depthLimit : Nat := 50

/-- A value. -/
inductive Element where
  | leaf (identifier : Identifier) (content : Bytes)
  | node (identifier : Identifier) (children : List Element)
deriving Repr

/-! ## Where a content ends -/

/-- Pass values until an end mark, at most `fuel` of them. `pass` goes behind one value and says
whether it was an end mark. -/
def passUntilEnd (pass : Bytes → Option (Bool × Bytes)) : (fuel : Nat) → Bytes → Option Bytes
  | 0, _ => none
  | fuel + 1, b =>
    match pass b with
    | none => none
    | some (true, rest) => some rest
    | some (false, rest) => passUntilEnd pass fuel rest

/-- Go behind a content. Says whether the value is an end mark itself. -/
def passContent : (depth : Nat) → Header → Bytes → Option (Bool × Bytes)
  | 0, _, _ => none
  | depth + 1, h, b =>
    match h.extent with
    | .definite length =>
      if length == 0 && h.identifier.number == 0 then some (true, b)
      else (take? length b).map fun (_, rest) => (false, rest)
    | .indefinite =>
      let pass (b : Bytes) := (Header.read? b).bind fun (h, b) => passContent depth h b
      (passUntilEnd pass b.length b).map fun rest => (false, rest)

/-- The bytes of a content and what follows it; an end mark is no part of the content. -/
def content? (h : Header) (b : Bytes) : Option (Bytes × Bytes) := do
  let (_, rest) ← passContent depthLimit h b
  let passed := b.take (b.length - rest.length)
  match h.extent with
  | .definite _ => return (passed, rest)
  | .indefinite => return (passed.take (passed.length - 2), rest)

/-! ## Values -/

/-- A sequence or a set. -/
def holdsValues (id : Identifier) : Bool :=
  id.tagClass == .universal && (id.number == 16 || id.number == 17)

def values? (read : Bytes → Option (Element × Bytes)) : (fuel : Nat) → Bytes → Option (List Element)
  | _, [] => some []
  | 0, _ => none
  | fuel + 1, b =>
    match read b with
    | none => none
    | some (e, rest) => (values? read fuel rest).map (e :: ·)

/-- The value that a header and a content make up. The values inside are read by `read`. -/
def ofContent? (read : Bytes → Option (Element × Bytes)) (h : Header) (content : Bytes) :
    Option Element :=
  if holdsValues h.identifier then
    if h.identifier.constructed then
      (values? read content.length content).map (.node h.identifier)
    else none
  else if h.identifier.tagClass != .universal || leafFits h content then
    some (.leaf h.identifier content)
  else none

/-- Read a value that nests at most `depth` deep, and what follows it. -/
def element? : (depth : Nat) → Bytes → Option (Element × Bytes)
  | 0, _ => none
  | depth + 1, b =>
    match Header.read? b with
    | none => none
    | some (h, b) =>
      match content? h b with
      | none => none
      | some (content, rest) => (ofContent? (element? depth) h content).map fun e => (e, rest)

/-- Read a value whose outermost length is definite. -/
def definiteElement? (b : Bytes) : Option (Element × Bytes) :=
  match Header.read? b with
  | some (⟨_, .definite _⟩, _) => element? depthLimit b
  | _ => none

namespace Element

def sequence? : Element → Option (List Element)
  | .node id children => if id.number == 16 then some children else none
  | .leaf .. => none

/-- The number that an unsigned integer of at most 32 bits writes. -/
def natural? : Element → Option Nat
  | .leaf id content =>
    if id.tagClass == .universal && (id.number == 2 || id.number == 10) then
      if content.toNat < UInt32.size then some content.toNat else none
    else none
  | .node .. => none

end Element

end ConnectionSecurity.Asn1
