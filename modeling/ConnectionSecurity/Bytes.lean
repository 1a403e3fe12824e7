/-!
# Byte strings

The content of a file is a list of bytes. Text is its UTF-8 reading, and searching is searching for
a run of bytes, so that a marker made of ASCII characters is found in text that is cut or malformed
elsewhere.
-/

namespace ConnectionSecurity

/-- The content of a file. -/
abbrev Bytes := List UInt8

namespace Bytes

/-- The UTF-8 encoding of a text. -/
def ofText (s : String) : Bytes := s.toUTF8.data.toList

/-- The text a byte string encodes, if it is valid UTF-8. -/
def text? (b : Bytes) : Option String := String.fromUTF8? ⟨b.toArray⟩

@[simp] theorem text?_ofText (s : String) : text? (ofText s) = some s := by
  have hvalid : (⟨(ofText s).toArray⟩ : ByteArray).IsValidUTF8 := s.isValidUTF8
  rw [text?, String.fromUTF8?, dif_pos hvalid]
  rfl

/-- Whether `needle` occurs in the byte string as a contiguous run. -/
def hasRun (needle : Bytes) : Bytes → Bool
  | [] => needle.isEmpty
  | b :: bs => needle.isPrefixOf (b :: bs) || hasRun needle bs

/-- The value of a byte string read as digits to base 256, most significant first. -/
def toNat (b : Bytes) : Nat := b.foldl (fun n d => n * 256 + d.toNat) 0

@[simp] theorem toNat_nil : toNat [] = 0 := rfl

/-- The number of bytes of a text in UTF-8. -/
def sizeOfText (s : String) : Nat := s.utf8ByteSize

end Bytes

end ConnectionSecurity
