import ConnectionSecurity.CommandLine.Footprint

/-!
# The program

A run works on a picture of the disk: what stands along the paths that the request may read or
change. The request is carried out on the picture, and then the disk is changed where the picture
has.
-/

namespace ConnectionSecurity.Disk

/-- What stands at locations of the disk, the latest look first. -/
abbrev Picture := List (Location × Option Node)

/-- What stands at a location. A link leads to where it leads in the end, and what is no regular file
looks like a directory. -/
def look (loc : Location) : IO (Option Node) := do
  let path := FileSystem.pathOf loc
  try
    let real ← IO.FS.realPath path
    if real.toString != path then return some (.link real.toString)
    match (← real.metadata).type with
    | .file => return some (.file (← IO.FS.readBinFile real).toList)
    | _ => return some .directory
  catch _ => return none

/-- Add what stands along a path to a picture, following at most `links` links. -/
def along (links : Nat) (here : Location) (seen : Picture) : List String → IO Picture
  | [] => return seen
  | piece :: rest =>
    if Path.isIdle piece then along links here seen rest
    else if piece == ".." then along links here.tail seen rest
    else
      look (piece :: here) >>= fun found =>
        let seen := (piece :: here, found) :: seen
        match found with
        | some (.link target) =>
          match links with
          | 0 => return seen
          | links + 1 => along links [] seen (target.pieces ++ rest)
        | _ => along links (piece :: here) seen rest
termination_by pieces => (links, pieces.length)

/-- The file system that a picture shows. -/
def develop (here : Location) (seen : Picture) : FileSystem :=
  seen.foldr
    (fun (loc, found) fs =>
      match found with
      | some node => fs.put loc node
      | none => fs.drop loc)
    (.blank here)

/-- Take the picture for a request. The second look goes where the settings and the profile lead. -/
def picture (request : CommandLine.Request) (env : Environment) (here : Location) : IO Picture := do
  let mut seen := []
  for _ in [1, 2] do
    for path in request.paths (develop here seen) env do
      seen ← along FileSystem.linkLimit (if path.isAbsolute then [] else here) seen path.pieces
  return seen

/-- Change what stands at a location. -/
def change (loc : Location) (old new : Option Node) : IO Unit := do
  let path := FileSystem.pathOf loc
  if new = old then return
  match new with
  | none => IO.FS.removeFile path
  | some .directory => IO.FS.createDirAll path
  | some (.file content) =>
    if let some (.link _) := old then IO.FS.removeFile path
    IO.FS.writeBinFile path ⟨content.toArray⟩
  | some (.link _) => return

/-- Change the disk where a file system differs from the picture of it, outermost first. -/
def update (seen : Picture) (fs : FileSystem) : IO Unit := do
  for (loc, old) in seen.reverse.eraseDups do
    change loc old (fs.look loc)

end ConnectionSecurity.Disk

open ConnectionSecurity

def main (args : List String) : IO UInt32 := do
  let env : Environment :=
    ⟨← IO.getEnv "HOME", ← IO.getEnv "XDG_CONFIG_HOME", ← IO.getEnv "XDG_DATA_HOME"⟩
  let here := (Path.names (← IO.currentDir).toString).reverse
  let seen ← match CommandLine.Reading.of args with
    | .run request => Disk.picture request env here
    | _ => pure []
  let output := CommandLine.run args (Disk.develop here seen) env
  Disk.update seen output.fs
  IO.print output.stdout
  IO.eprint output.stderr
  return output.code
