import ConnectionSecurity.Text.Split

/-!
# Paths as text

A path is the text a user wrote. The operations here look at that text only and never at the file
system: which part names the file, what stands before it, and how a path is put behind another.

The text splits at every slash. Empty pieces and single dots count for nothing, except that a path
which begins with a dot piece keeps it. So `a//b/.` names `b` in `a`, and `./a` stands in `.`.
-/

namespace ConnectionSecurity

/-- A path, absolute or relative, as it was written. -/
abbrev Path := String

namespace Path

/-- A path is absolute iff it begins with a slash. -/
def isAbsolute (p : Path) : Bool := p.toList.head? == some '/'

/-- The pieces between the slashes, empty ones and dots included. -/
def pieces (p : Path) : List String :=
  (Text.splitOnP (· == '/') p.toList).map String.ofList

/-- A piece that names nothing: empty, or a single dot. -/
def isIdle (piece : String) : Bool := piece == "" || piece == "."

/-- The pieces that count, without a leading dot. -/
def names (p : Path) : List String := p.pieces.filter (!isIdle ·)

/-- The text that stands before the first counting piece and is never dropped: a slash for an
absolute path, a dot for one that begins with a dot piece. -/
def anchor (p : Path) : String :=
  if p.isAbsolute then "/" else if p.pieces.head? == some "." then "." else ""

/-- Pieces from the last to the first, without the idle ones at the end. -/
private def settled (pieces : List String) : List String := pieces.dropWhile isIdle

/-- The pieces behind the anchor, last first, without the idle ones at the end. -/
def body (p : Path) : List String :=
  settled (if p.anchor == "" then p.pieces else p.pieces.drop 1).reverse

/-- Put the pieces of a body, last first, behind an anchor. An anchor that is a slash already
separates; a dot needs one. -/
def ofBody (anchor : String) (body : List String) : Path :=
  let text := "/".intercalate body.reverse
  if body.isEmpty then anchor else if anchor == "." then "./" ++ text else anchor ++ text

/-- What stands before the last name: `none` for the root and the empty path, which have no last
name. -/
def parent? (p : Path) : Option Path :=
  match p.body with
  | _ :: rest => some (ofBody p.anchor (settled rest))
  | [] => if p.anchor == "." then some "" else none

/-- The last name, unless it is a double dot. -/
def fileName? (p : Path) : Option String :=
  match p.body with
  | name :: _ => if name == ".." then none else some name
  | [] => none

/-- Split a file name at its last dot. A dot in front does not divide. -/
def splitName (name : String) : String × Option String :=
  let back := name.toList.reverse
  let ext := back.takeWhile (· != '.')
  let rest := back.dropWhile (· != '.')
  match rest with
  | _ :: stem =>
    if stem.isEmpty then (name, none)
    else (String.ofList stem.reverse, some (String.ofList ext.reverse))
  | [] => (name, none)

/-- What follows the last dot of the file name. -/
def extension? (p : Path) : Option String := p.fileName?.bind fun n => (splitName n).2

/-- The path with the extension of its file name replaced, or added if it has none. The old one is
cut off the end of the path first, so `..x` becomes `..`, and a path without a file name gets no
extension. -/
def withExtension (p : Path) (ext : String) : Path :=
  match p.body, p.fileName? with
  | _ :: rest, some name =>
    let stem := (splitName name).1
    let leaf :=
      if stem == "." && p.pieces.getLast? == some name then ".." else stem ++ "." ++ ext
    ofBody p.anchor (leaf :: rest)
  | _, _ => p

/-- Whether the last piece, which slashes may follow, is a name: no dot and no double dot. -/
def endsInName (p : Path) : Bool :=
  match (p.pieces.reverse.dropWhile (· == "")).head? with
  | some piece => piece != "." && piece != ".."
  | none => false

/-- Put `q` behind `p`. An absolute `q` stands alone, and nothing but `q` stands behind an empty
path. -/
def join (p q : Path) : Path :=
  if q.isAbsolute || p.isEmpty then q
  else if p.toList.getLast? == some '/' then p ++ q
  else p ++ "/" ++ q

@[simp] theorem join_of_isAbsolute {p q : Path} (h : q.isAbsolute = true) : p.join q = q := by
  simp [join, h]

end Path

end ConnectionSecurity
