import ConnectionSecurity.CommandLine.Arguments
import ConnectionSecurity.Credential.Chooser
import ConnectionSecurity.Profile.File
import ConnectionSecurity.Security.Page
import ConnectionSecurity.Settings.Locations
import ConnectionSecurity.Settings.Schema

/-!
# Running a task

A run reads the settings, prepares the log if there is one, and carries the task out. It either ends
with lines to print, or with a message; the file system that it leaves behind counts in both cases.
-/

namespace ConnectionSecurity.CommandLine

/-- How a task ends: with lines to print or with a message, and the files as it leaves them. -/
abbrev Ending := Except String (List String) × FileSystem

def truthWord (b : Bool) : String := if b then "true" else "false"

/-! ## Tasks -/

/-- What a validated profile has to say for itself. -/
def validationLines (path : Path) (page : Page) (report : Report) : List String :=
  report.map (fun w => "warning: " ++ w.message) ++ [path ++ ": " ++ page.kind.label ++ " ok"]

/-- Validate a profile and, if asked to, write it back as the page would save it. -/
def validate (fs : FileSystem) (env : Environment) (settings : Settings) (path : Path)
    (save isNew : Bool) : Ending :=
  let opened : Except String (Profile × Page) := do
    let profile ← (Profile.load fs path).mapError (·.message)
    let waiverPath ← (settings.waiverPath env).mapError (·.message)
    let store ← (Waiver.Store.openFile fs waiverPath).mapError (·.message)
    let page := Page.new (.forProfile profile settings.secrets isNew) store
    return (profile, page.load fs profile)
  match opened with
  | .error message => (.error message, fs)
  | .ok (profile, page) =>
    if save then
      let saved := page.save fs profile
      match saved.result with
      | .error e => (.error e.message, saved.fs)
      | .ok report =>
        match saved.profile.save saved.fs path with
        | (.error e, fs) => (.error e.message, fs)
        | (.ok (), fs) => (.ok (validationLines path saved.page report), fs)
    else
      match page.validate fs profile with
      | (.error fault, _) => (.error fault.message, fs)
      | (.ok report, page) => (.ok (validationLines path page report), fs)

def material (fs : FileSystem) (path : Path) (purpose : Credential.Purpose) :
    Except String (List String) := do
  match ← (Credential.check fs (some path) purpose none).mapError (·.message) with
  | none => return ["no file selected"]
  | some file =>
    let encrypted := if purpose = .privateKey then ["encrypted: " ++ truthWord file.encrypted]
      else []
    return ["path:      " ++ file.path, "format:    " ++ file.format.name] ++ encrypted ++
      ["candidate: " ++ truthWord (Credential.isListed fs path purpose)]

/-- Open the store of waivers that the settings name. -/
def openStore (fs : FileSystem) (env : Environment) (settings : Settings) :
    Except String Waiver.Store := do
  let path ← (settings.waiverPath env).mapError (·.message)
  (Waiver.Store.openFile fs path).mapError (·.message)

def showWaivers (fs : FileSystem) (env : Environment) (settings : Settings) (uuid : String) :
    Except String (List String) := do
  let store ← openStore fs env settings
  let waived (phase : Phase) := truthWord (store.table.isWaived uuid phase)
  return ["ignore-ca-cert = " ++ waived .outer, "ignore-phase2-ca-cert = " ++ waived .inner]

/-- Change a waiver of a connection, in the file too. -/
def setWaiver (fs : FileSystem) (env : Environment) (settings : Settings) (uuid : String)
    (waived : Bool) (phase : Phase) : Ending :=
  match openStore fs env settings with
  | .error message => (.error message, fs)
  | .ok store =>
    match (store.decide uuid phase waived).persist fs uuid with
    | (.error e, fs) => (.error e.message, fs)
    | (.ok (), fs) => (.ok [], fs)

/-- Carry a task out. -/
def Task.run (fs : FileSystem) (env : Environment) (settings : Settings) : Task → Ending
  | .validate path save isNew => CommandLine.validate fs env settings path save isNew
  | .material path purpose => (CommandLine.material fs path purpose, fs)
  | .showWaivers uuid => (CommandLine.showWaivers fs env settings uuid, fs)
  | .setWaiver uuid waived phase => CommandLine.setWaiver fs env settings uuid waived phase
  | .schema => (.ok [Settings.Schema.document.print], fs)

/-! ## Requests -/

def Request.settings (r : Request) (fs : FileSystem) (env : Environment) :
    Except Failure Settings :=
  match r.settingsFile with
  | some path => Settings.load fs path
  | none => Settings.loadStandard fs env

/-- Make the directory for logs. What stands there has to be one. -/
def prepareLog (fs : FileSystem) (env : Environment) : Except String Unit × FileSystem :=
  match env.logDir fs with
  | (.error e, fs) => (.error e.message, fs)
  | (.ok dir, fs) =>
    match fs.createDirectories dir with
    | (.error e, fs) => (.error ("failed to create log directory: " ++ e.message), fs)
    | (.ok (), fs) => (.ok (), fs)

/-- Carry a request out. -/
def Request.run (r : Request) (fs : FileSystem) (env : Environment) : Ending :=
  match r.settings fs env with
  | .error e => (.error e.message, fs)
  | .ok settings =>
    match if r.logToFile then prepareLog fs env else (.ok (), fs) with
    | (.error message, fs) => (.error message, fs)
    | (.ok (), fs) => r.task.run fs env settings

/-! ## The program -/

/-- What the program prints and returns, and the files as it leaves them. -/
structure Output where
  code : UInt32
  stdout : String
  stderr : String
  fs : FileSystem

def usage : String := "Usage: wsec [OPTIONS] <validate|material|ca-ignore|schema>"

def unlines (lines : List String) : String := String.join (lines.map (· ++ "\n"))

/-- Run the program. -/
def run (args : List String) (fs : FileSystem) (env : Environment) : Output :=
  match Reading.of args with
  | .help => ⟨0, unlines [usage], "", fs⟩
  | .wrong => ⟨2, "", unlines [usage], fs⟩
  | .run request =>
    match request.run fs env with
    | (.ok lines, fs) => ⟨0, unlines lines, "", fs⟩
    | (.error message, fs) => ⟨1, "", unlines ["error: " ++ message], fs⟩

end ConnectionSecurity.CommandLine
