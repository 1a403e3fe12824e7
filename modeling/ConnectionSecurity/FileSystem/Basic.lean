import ConnectionSecurity.Bytes
import ConnectionSecurity.Path

/-!
# A tree of files, as a value

A file system says for every location what is there. A location is a list of names from the
innermost outward, so that the directory a thing stands in is the tail of its location and the root
is `[]`. The root is a directory whatever the map says.

Operations that read take a file system; operations that write return the next one.
-/

namespace ConnectionSecurity

/-- Names from the innermost outward; the root is the empty list. -/
abbrev Location := List String

/-- What stands at a location. -/
inductive Node where
  | directory
  | file (content : Bytes)
  /-- A symbolic link with the path it was made with. -/
  | link (target : Path)
deriving DecidableEq, Repr

/-- A tree of files and the directory that relative paths start from. -/
structure FileSystem where
  node? : Location → Option Node
  workingDirectory : Location

/-! ## What can go wrong -/

/-- Why an operation on files fails. -/
inductive IoError where
  | notFound
  | notADirectory
  | isADirectory
  | alreadyExists
  | nameTooLong
  | tooManyLinks
  /-- The name is one that cannot be given or taken. -/
  | busy
  /-- The path holds a NUL character, which no path of the system can. -/
  | nulInPath
  /-- The content is not valid UTF-8. -/
  | notText
deriving DecidableEq, Repr

/-- The text of an error, as the operating system words it. -/
def IoError.message : IoError → String
  | notFound => "No such file or directory (os error 2)"
  | notADirectory => "Not a directory (os error 20)"
  | isADirectory => "Is a directory (os error 21)"
  | alreadyExists => "File exists (os error 17)"
  | nameTooLong => "File name too long (os error 36)"
  | tooManyLinks => "Too many levels of symbolic links (os error 40)"
  | busy => "Device or resource busy (os error 16)"
  | nulInPath => "file name contained an unexpected NUL byte"
  | notText => "stream did not contain valid UTF-8"

namespace FileSystem

/-! ## Looking at and changing one location -/

/-- Only a root and a working directory, with the directories above it. -/
def blank (workingDirectory : Location) : FileSystem where
  node? loc := if loc.isSuffixOf workingDirectory then some .directory else none
  workingDirectory

def look (fs : FileSystem) : Location → Option Node
  | [] => some .directory
  | loc => fs.node? loc

/-- Put a node at a location, in place of what was there. -/
def put (fs : FileSystem) (loc : Location) (node : Node) : FileSystem :=
  { fs with node? := fun l => if l = loc then some node else fs.node? l }

def drop (fs : FileSystem) (loc : Location) : FileSystem :=
  { fs with node? := fun l => if l = loc then none else fs.node? l }

@[simp] theorem look_nil (fs : FileSystem) : fs.look [] = some .directory := rfl

@[simp] theorem look_cons (fs : FileSystem) (name : String) (loc : Location) :
    fs.look (name :: loc) = fs.node? (name :: loc) := rfl

@[simp] theorem node?_put (fs : FileSystem) (loc l : Location) (n : Node) :
    (fs.put loc n).node? l = if l = loc then some n else fs.node? l := rfl

@[simp] theorem node?_drop (fs : FileSystem) (loc l : Location) :
    (fs.drop loc).node? l = if l = loc then none else fs.node? l := rfl

@[simp] theorem workingDirectory_put (fs : FileSystem) (loc : Location) (n : Node) :
    (fs.put loc n).workingDirectory = fs.workingDirectory := rfl

@[simp] theorem workingDirectory_drop (fs : FileSystem) (loc : Location) :
    (fs.drop loc).workingDirectory = fs.workingDirectory := rfl

/-- A file system holds what was put into it. -/
@[simp] theorem look_put_self (fs : FileSystem) (name : String) (loc : Location) (n : Node) :
    (fs.put (name :: loc) n).look (name :: loc) = some n := by simp [look]

end FileSystem

end ConnectionSecurity
