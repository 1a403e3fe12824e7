import ConnectionSecurity.Text.Ascii
import ConnectionSecurity.Text.Blank
import ConnectionSecurity.Text.Split

/-!
# Flags of a stored secret

A profile keeps a word of 32 flags beside each of its secrets. Two of them say where the secret is
stored and a third that it is not needed; the others have no meaning here and are kept as they are.

In a document flags are a text: the names of the known ones, then the rest as one hexadecimal
number, with bars between.
-/

namespace ConnectionSecurity.Secret

/-- The flags beside a secret. -/
structure Flags where
  bits : UInt32
deriving DecidableEq, Repr, Inhabited

namespace Flags

/-- No flag is set. -/
def none : Flags := ⟨0⟩

/-- An agent stores the secret in place of the profile. -/
def agentOwned : Flags := ⟨1⟩

/-- Nobody stores the secret. -/
def notSaved : Flags := ⟨2⟩

/-- The secret is not needed. -/
def notRequired : Flags := ⟨4⟩

/-- The flags that say where the secret is stored. -/
def storage : Flags := ⟨3⟩

/-- Whether every flag of `g` is set. -/
def contains (f g : Flags) : Bool := f.bits &&& g.bits == g.bits

/-- Whether no flag is set. -/
def isEmpty (f : Flags) : Bool := f.bits == 0

/-- The flags of either. -/
def union (f g : Flags) : Flags := ⟨f.bits ||| g.bits⟩

/-- The flags that are also in `g`. -/
def inter (f g : Flags) : Flags := ⟨f.bits &&& g.bits⟩

/-- The flags that are not in `g`. -/
def without (f g : Flags) : Flags := ⟨f.bits &&& ~~~g.bits⟩

@[simp] theorem bits_union (f g : Flags) : (f.union g).bits = f.bits ||| g.bits := rfl

@[simp] theorem bits_inter (f g : Flags) : (f.inter g).bits = f.bits &&& g.bits := rfl

@[simp] theorem bits_without (f g : Flags) : (f.without g).bits = f.bits &&& ~~~g.bits := rfl

/-! ## Text -/

/-- The flags that have a name, in the order of their bits. -/
def named : List (String × Flags) :=
  [("AGENT_OWNED", agentOwned), ("NOT_SAVED", notSaved), ("NOT_REQUIRED", notRequired)]

/-- The flags without a name. -/
def unnamed (f : Flags) : Flags := named.foldl (fun f (_, g) => f.without g) f

/-- A word in hexadecimal with its mark in front. -/
def hexText (n : UInt32) : String := "0x" ++ String.ofList (Nat.toDigits 16 n.toNat)

/-- The pieces of the text: the names of the flags that are set, then the rest as a number. -/
def words (f : Flags) : List String :=
  (named.filter fun (_, g) => f.contains g).map (·.1) ++
    if f.unnamed.isEmpty then [] else [hexText f.unnamed.bits]

/-- The flags as a text. -/
def text (f : Flags) : String := " | ".intercalate f.words

/-- The word that hexadecimal digits write, with an optional plus sign in front. -/
def ofHex? (cs : List Char) : Option Flags :=
  let ds := match cs with
    | '+' :: ds => ds
    | ds => ds
  if ds.isEmpty || !ds.all Text.isHexDigit then Option.none
  else
    let n := ds.foldl (fun n c => n * 16 + (Text.hexDigit? c).getD 0) 0
    if n < UInt32.size then some ⟨UInt32.ofNat n⟩ else Option.none

/-- The flags that one piece of a text names. -/
def ofWord? (cs : List Char) : Option Flags :=
  match cs with
  | '0' :: 'x' :: ds => ofHex? ds
  | cs => named.lookup (String.ofList cs)

/-- The flags that a text names. A blank text names none. -/
def ofText? (s : String) : Option Flags :=
  let cs := s.toList
  if (Text.trimmed cs).isEmpty then some none
  else
    ((Text.splitOnP (· == '|') cs).mapM fun piece => ofWord? (Text.trimmed piece)).map
      (·.foldl union none)

end Flags

end ConnectionSecurity.Secret
