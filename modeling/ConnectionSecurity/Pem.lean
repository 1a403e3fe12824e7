import ConnectionSecurity.Base64
import ConnectionSecurity.Text.Blank
import ConnectionSecurity.Text.Split

/-!
# Text armour

A block stands between a line with `BEGIN` and a line with `END` that name the same label. It may
open with headers, which an empty line ends; the rest is base 64 with blanks anywhere. Text between
blocks does not count, and neither does a block that is cut off.

Marks are looked for in one pass that, when a match breaks off, starts anew behind the character
that broke it. So a mark with one dash too many in front is not seen.
-/

namespace ConnectionSecurity.Pem

/-! ## Finding marks -/

/-- Look for `mark`, of which `left` is still to be matched, and return what stands before and after
it. What was read so far is in `taken`, last byte first. -/
def seek (mark left taken : Bytes) : Bytes → Option (Bytes × Bytes)
  | [] => none
  | b :: bs =>
    match left with
    | [] => none
    | m :: ms =>
      if b == m then
        if ms.isEmpty then some ((taken.drop (mark.length - 1)).reverse, bs)
        else seek mark ms (b :: taken) bs
      else seek mark mark (b :: taken) bs

/-- Cut a byte string at the first place where a mark is seen. -/
def cut (mark : String) (b : Bytes) : Option (Bytes × Bytes) :=
  seek (Bytes.ofText mark) (Bytes.ofText mark) [] b

/-- A blank, a tab or a line break. -/
def isGapByte (b : UInt8) : Bool := b == 0x20 || b == 0x09 || b == 0x0a || b == 0x0d

/-! ## Blocks -/

/-- A block as it stands, nothing of it decoded. -/
structure RawBlock where
  label : Bytes
  headers : Bytes
  data : Bytes
  closingLabel : Bytes

/-- Split the inside of a block at the empty line that ends its headers. -/
def splitHeaders (inside : Bytes) : Bytes × Bytes :=
  match cut "\n\n" inside with
  | some found => found
  | none =>
    match cut "\r\n\r\n" inside with
    | some found => found
    | none => ([], inside)

/-- Take the first complete block, and what follows it. -/
def nextBlock? (b : Bytes) : Option (RawBlock × Bytes) := do
  let (_, b) ← cut "-----BEGIN " b
  let (label, b) ← cut "-----" b
  let (inside, b) ← cut "-----END " (b.dropWhile isGapByte)
  let (closingLabel, b) ← cut "-----" b
  let (headers, data) := splitHeaders inside
  return (⟨label, headers, data, closingLabel⟩, b.dropWhile isGapByte)

/-- The complete blocks in order, at most `fuel` of them. -/
def rawBlocks : (fuel : Nat) → Bytes → List RawBlock
  | 0, _ => []
  | fuel + 1, b =>
    match nextBlock? b with
    | some (block, rest) => block :: rawBlocks fuel rest
    | none => []

/-! ## Decoded blocks -/

/-- A block with its label, the names of its headers and its content. -/
structure Block where
  label : String
  headers : List (String × String)
  content : Bytes
deriving Repr

/-- The lines of a text. A carriage return before the line feed belongs to neither line, and a line
feed at the very end begins none. -/
def lines (cs : List Char) : List (List Char) :=
  let all := Text.splitOnP (· == '\n') cs
  let all := if all.getLast? == some [] then all.dropLast else all
  all.map fun l => if l.getLast? == some '\r' then l.dropLast else l

/-- A header: a name and a value with a colon between them. -/
def header? (line : List Char) : Option (String × String) :=
  match line.dropWhile (· != ':') with
  | _ :: value =>
    some (String.ofList (Text.trimmed (line.takeWhile (· != ':'))),
      String.ofList (Text.trimmed value))
  | [] => none

/-- Decode a block: its two labels have to be the same text and not empty. -/
def RawBlock.decode? (raw : RawBlock) : Option Block := do
  let label ← raw.label.text?
  let closingLabel ← raw.closingLabel.text?
  let data ← raw.data.text?
  let headers ← raw.headers.text?
  if label.isEmpty || label != closingLabel then none
  let headers ← (lines headers.toList).mapM header?
  let content ← Base64.decode? (data.toList.filter (!Text.isBlank ·))
  return { label, headers, content }

/-- The complete blocks of a file; `none` if one of them cannot be decoded. -/
def blocks? (b : Bytes) : Option (List Block) := (rawBlocks b.length b).mapM RawBlock.decode?

end ConnectionSecurity.Pem
