import ConnectionSecurity.Failure
import ConnectionSecurity.Settings.Basic
import ConnectionSecurity.Toml.Plain

/-!
# Where settings and data are

Two variables of the environment name the directories for settings and for data; without them they
are at their usual places in the home directory. The directories for data are made when they are
asked for.
-/

namespace ConnectionSecurity

/-- The variables of the environment that name places. -/
structure Environment where
  home : Option String := none
  configHome : Option String := none
  dataHome : Option String := none
deriving DecidableEq, Repr

/-- Why a place is not known. -/
inductive PlaceError where
  /-- Neither of two variables is set. -/
  | unset (names : String)
  | io (e : IoError)
deriving DecidableEq, Repr

def PlaceError.message : PlaceError → String
  | unset names => "Neither " ++ names ++ " environment variable found"
  | io e => e.message

namespace Environment

/-- The directory with the settings of all programs. -/
def configBase (env : Environment) : Except PlaceError Path :=
  match env.configHome, env.home with
  | some dir, _ => .ok dir
  | none, some home => .ok (home ++ "/.config")
  | none, none => .error (.unset "XDG_CONFIG_HOME nor HOME")

/-- The directory with the data of all programs. -/
def dataBase (env : Environment) : Except PlaceError Path :=
  match env.dataHome, env.home with
  | some dir, _ => .ok dir
  | none, some home => .ok (home ++ "/.local/share")
  | none, none => .error (.unset "XDG_DATA_HOME nor HOME")

def programName : String := "wsec"

def configDir (env : Environment) : Except PlaceError Path :=
  env.configBase.map (Path.join · programName)

def settingsFile (env : Environment) : Except PlaceError Path :=
  env.configDir.map (Path.join · "config.toml")

def waiverFile (env : Environment) : Except PlaceError Path :=
  env.configDir.map (Path.join · "ca-ignore.toml")

/-- The directory for data of the program. -/
def dataPath (env : Environment) : Except PlaceError Path :=
  env.dataBase.map (Path.join · programName)

def logPath (env : Environment) : Except PlaceError Path :=
  env.dataPath.map (Path.join · "logs")

/-- Make a directory unless something is there already. -/
def ensure (fs : FileSystem) (dir : Path) : Except PlaceError Path × FileSystem :=
  if fs.pathExists dir then (.ok dir, fs)
  else
    match fs.createDirectories dir with
    | (.ok (), fs) => (.ok dir, fs)
    | (.error e, fs) => (.error (.io e), fs)

/-- The directory for data, which is made if it is missing. -/
def dataDir (env : Environment) (fs : FileSystem) : Except PlaceError Path × FileSystem :=
  match env.dataPath with
  | .ok dir => ensure fs dir
  | .error e => (.error e, fs)

/-- The directory for logs, which is made if it is missing; so is the one it stands in. -/
def logDir (env : Environment) (fs : FileSystem) : Except PlaceError Path × FileSystem :=
  match env.dataDir fs with
  | (.ok dir, fs) => ensure fs (dir.join "logs")
  | (.error e, fs) => (.error e, fs)

end Environment

namespace Settings

/-! ## Loading -/

/-- The settings in a file. Without the file everything has its default. -/
def load (fs : FileSystem) (path : Path) : Except Failure Settings := do
  if !fs.pathExists path then return {}
  let text ← (fs.readText path).mapError fun e => .file path e.message
  match (Toml.read? text).bind fun entries => (Toml.Value.table entries).plain? with
  | none => throw (.notADocument (documentLocation fs (some path)))
  | some v =>
    match ofValue? v with
    | some s => return s
    | none => throw (.configuration "config parsing" "Configuration validation failed")

def loadStandard (fs : FileSystem) (env : Environment) : Except Failure Settings :=
  match env.settingsFile with
  | .ok path => load fs path
  | .error e => .error (.system e.message)

/-- The file with the table of waivers: the one that is set, or the one in the standard place. -/
def waiverPath (s : Settings) (env : Environment) : Except Failure Path :=
  match s.waiverFile with
  | some path => .ok path
  | none => env.waiverFile.mapError fun e => .system e.message

end Settings

end ConnectionSecurity
