import ConnectionSecurity.FileSystem.Walk

/-!
# Operations on files

Reading follows links and never changes anything. Writing replaces the content of the file a path
leads to, or makes it; moving and making directories take a link for itself. A failed operation
leaves the file system as it was, except that making a chain of directories keeps those it made
before it failed.
-/

namespace ConnectionSecurity.FileSystem

/-! ## Reading -/

/-- What a path leads to. -/
def nodeAt (fs : FileSystem) (p : Path) : Except IoError Node := do
  match ← fs.locate .follow p with
  | .node _ node => return node
  | .vacant .. => throw .notFound

def pathExists (fs : FileSystem) (p : Path) : Bool := (fs.nodeAt p).isOk

def isDirectory (fs : FileSystem) (p : Path) : Bool :=
  match fs.nodeAt p with
  | .ok .directory => true
  | _ => false

/-- The size of the regular file that a path leads to. -/
def fileSize? (fs : FileSystem) (p : Path) : Option Nat :=
  match fs.nodeAt p with
  | .ok (.file content) => some content.length
  | _ => none

def pathOf (loc : Location) : Path := "/" ++ "/".intercalate loc.reverse

/-- The absolute path without links, dots and repeated slashes. The thing has to exist. -/
def canonicalPath (fs : FileSystem) (p : Path) : Except IoError Path := do
  match ← fs.walkFrom .follow p with
  | .node loc _ => return pathOf loc
  | .vacant .. => throw .notFound

def read (fs : FileSystem) (p : Path) : Except IoError Bytes := do
  match ← fs.nodeAt p with
  | .file content => return content
  | _ => throw .isADirectory

/-- The content of the file a path leads to, which has to be text. -/
def readText (fs : FileSystem) (p : Path) : Except IoError String := do
  match (← fs.read p).text? with
  | some s => return s
  | none => throw .notText

/-! ## Writing -/

/-- A path that ends in a slash asks for a directory. -/
def asksForDirectory (p : Path) : Bool := p.toList.getLast? == some '/'

/-- Make the content of the file a path leads to `content`, making the file if it is missing. -/
def write (fs : FileSystem) (p : Path) (content : Bytes) : Except IoError FileSystem := do
  if asksForDirectory p then
    let _ ← fs.locate .stay p
    throw .isADirectory
  match ← fs.locate .follow p with
  | .node loc (.file _) => return fs.put loc (.file content)
  | .node _ _ => throw .isADirectory
  | .vacant dir name slash => if slash then throw .isADirectory else
      return fs.put (name :: dir) (.file content)

def writeText (fs : FileSystem) (p : Path) (text : String) : Except IoError FileSystem :=
  fs.write p (Bytes.ofText text)

def createDirectory (fs : FileSystem) (p : Path) : Except IoError FileSystem := do
  match ← fs.locate .stay p with
  | .node .. => throw .alreadyExists
  | .vacant dir name _ => return fs.put (name :: dir) .directory

/-- The directories a path goes through, the path first and the outermost last. -/
def ancestors (anchor : String) : List String → List Path
  | [] => []
  | piece :: outer =>
    if Path.isIdle piece then ancestors anchor outer
    else Path.ofBody anchor (piece :: outer) :: ancestors anchor outer

/-- Make the first directory of a list, and those after it first if they are missing. A directory
that is there already is as good as made. -/
def createAlong (fs : FileSystem) : List Path → Except IoError Unit × FileSystem
  | [] => (.ok (), fs)
  | p :: outer =>
    match fs.createDirectory p with
    | .ok made => (.ok (), made)
    | .error .notFound =>
      match createAlong fs outer with
      | (.error e, fs) => (.error e, fs)
      | (.ok (), fs) =>
        match fs.createDirectory p with
        | .ok made => (.ok (), made)
        | .error e => if fs.isDirectory p then (.ok (), fs) else (.error e, fs)
    | .error e => if fs.isDirectory p then (.ok (), fs) else (.error e, fs)

/-- Make a directory and the ones it stands in. The empty path needs nothing. -/
def createDirectories (fs : FileSystem) (p : Path) : Except IoError Unit × FileSystem :=
  fs.createAlong (ancestors p.anchor p.body)

/-- Give the thing at `source` the name `target`, in place of a file of that name. Neither may be a
dot, a double dot or the root. -/
def rename (fs : FileSystem) (source target : Path) : Except IoError FileSystem := do
  let moved ← fs.locate .stay source
  let found ← fs.locate .stay target
  if !source.endsInName || !target.endsInName then throw .busy
  match moved with
  | .vacant .. => throw .notFound
  | .node old thing =>
    if thing != .directory && asksForDirectory target then throw .notADirectory
    match found with
    | .vacant dir name _ => return (fs.drop old).put (name :: dir) thing
    | .node new there =>
      if new = old then return fs
      if there == .directory && thing != .directory then throw .isADirectory
      if there != .directory && thing == .directory then throw .notADirectory
      return (fs.drop old).put new thing

/-- Take a file or a link away. -/
def remove (fs : FileSystem) (p : Path) : Except IoError FileSystem := do
  match ← fs.locate .stay p with
  | .vacant .. => throw .notFound
  | .node _ .directory => throw .isADirectory
  | .node loc _ => return fs.drop loc

end ConnectionSecurity.FileSystem
