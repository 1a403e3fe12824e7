import ConnectionSecurity.FileSystem.Basic

/-!
# From a path to a location

A walk goes through the pieces of a path one by one. It stands in a directory all the time: an idle
piece stays, a double dot goes up (at the root it stays), a name goes down. A symbolic link puts
the pieces of its target in front of those still to come; only the forty-first link of a walk is
refused, so a circle of links ends in an error.

The walk ends at something that exists or at a vacant name in a directory that exists. Everything
else is an error: a name that is missing or is no directory before the end of the path.
-/

namespace ConnectionSecurity.FileSystem

/-- Where a walk ends. -/
inductive Found where
  | node (place : Location) (node : Node)
  /-- Nothing has this name in the directory; `slash` says that the path ends in a slash. -/
  | vacant (directory : Location) (name : String) (slash : Bool)
deriving DecidableEq, Repr

/-- What to do with a link that the last name of a path stands for. -/
inductive AtLink where
  | follow
  /-- The link itself is meant, also before trailing slashes. -/
  | stay
deriving DecidableEq, Repr

/-- The links that one walk may follow. -/
def linkLimit : Nat := 40

/-- The bytes that one name may have. -/
def nameLimit : Nat := 255

/-- The bytes that a path given to the system may have, one more than it can use. -/
def pathLimit : Nat := 4096

/-- Only slashes follow the name. -/
def isLast (rest : List String) : Bool := rest.all (· == "")

/-- Go through pieces from the directory `here`, with `links` links left to follow. -/
def walk (fs : FileSystem) (mode : AtLink) (links : Nat) (here : Location) :
    List String → Except IoError Found
  | [] => .ok (.node here .directory)
  | piece :: rest =>
    if Path.isIdle piece then walk fs mode links here rest
    else if piece == ".." then walk fs mode links here.tail rest
    else if nameLimit < Bytes.sizeOfText piece then .error .nameTooLong
    else
      match fs.look (piece :: here) with
      | none => if isLast rest then .ok (.vacant here piece !rest.isEmpty) else .error .notFound
      | some node =>
        if mode == .stay && isLast rest then .ok (.node (piece :: here) node)
        else
          match node with
          | .directory => walk fs mode links (piece :: here) rest
          | .file content =>
            if rest.isEmpty then .ok (.node (piece :: here) (.file content))
            else .error .notADirectory
          | .link target =>
            match links with
            | 0 => .error .tooManyLinks
            | links + 1 =>
              walk fs mode links (if target.isAbsolute then [] else here) (target.pieces ++ rest)
termination_by pieces => (links, pieces.length)

/-- Walk a path from the root or the working directory. -/
def walkFrom (fs : FileSystem) (mode : AtLink) (p : Path) : Except IoError Found :=
  if p.toList.contains '\x00' then .error .nulInPath
  else if p.isEmpty then .error .notFound
  else walk fs mode linkLimit (if p.isAbsolute then [] else fs.workingDirectory) p.pieces

/-- The walk of a path that is handed to the system, which refuses long ones first. -/
def locate (fs : FileSystem) (mode : AtLink) (p : Path) : Except IoError Found :=
  if !p.toList.contains '\x00' && pathLimit ≤ Bytes.sizeOfText p then .error .nameTooLong
  else fs.walkFrom mode p

end ConnectionSecurity.FileSystem
