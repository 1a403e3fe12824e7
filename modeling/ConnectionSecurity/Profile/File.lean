import ConnectionSecurity.Failure
import ConnectionSecurity.Profile.Codec

/-!
# Profiles in files

A profile is a document in a file of its own.
-/

namespace ConnectionSecurity.Profile

def parse (text : String) : Except Failure Profile :=
  match parse? text with
  | some p => .ok p
  | none => .error (.notADocument "string")

def load (fs : FileSystem) (path : Path) : Except Failure Profile := do
  let text ← (fs.readText path).mapError fun e => .file path e.message
  match parse? text with
  | some p => return p
  | none => throw (.notADocument (documentLocation fs (some path)))

/-- Write a profile to a file. The directory is made if it is missing. -/
def save (p : Profile) (fs : FileSystem) (path : Path) : Except Failure Unit × FileSystem :=
  let dir := path.parent?.getD ""
  let (made, fs) := fs.createDirectories dir
  match made with
  | .error e => (.error (.file dir e.message), fs)
  | .ok () =>
    match fs.writeText path p.print with
    | .error e => (.error (.file path e.message), fs)
    | .ok fs => (.ok (), fs)

end ConnectionSecurity.Profile
