import ConnectionSecurity.CommandLine.Run

/-!
# The files of a request

Which paths a request may read or change. Some are known from the arguments and the environment; the
settings name the table of waivers, and a profile names credential files, so the answer depends on
what the file system holds.
-/

namespace ConnectionSecurity

/-- The files that the certificate side of a phase refers to. -/
def Profile.Credentials.paths (c : Profile.Credentials) : List Path :=
  [c.caCert, c.clientCert, c.privateKey].filterMap (·.map (·.path))

/-- The files that a profile refers to. -/
def Profile.paths (p : Profile) : List Path :=
  match p.authentication with
  | some a => a.outer.paths ++ a.inner.paths ++ a.pacFile.toList
  | none => []

namespace CommandLine

def Request.settingsPaths (r : Request) (env : Environment) : List Path :=
  match r.settingsFile with
  | some path => [path]
  | none => env.settingsFile.toOption.toList

/-- The file with the table of waivers, and the one it is staged in. -/
def Request.waiverPaths (r : Request) (fs : FileSystem) (env : Environment) : List Path :=
  match (r.settings fs env).bind (·.waiverPath env) with
  | .ok path => [path, Waiver.stagingPath path]
  | .error _ => []

def Request.logPaths (r : Request) (env : Environment) : List Path :=
  if r.logToFile then env.logPath.toOption.toList else []

/-- The files that a task is about. -/
def Task.paths (fs : FileSystem) : Task → List Path
  | .validate path _ _ =>
    match Profile.load fs path with
    | .ok p => path :: p.paths
    | .error _ => [path]
  | .material path _ => [path]
  | _ => []

/-- The paths that a request may read or change. -/
def Request.paths (r : Request) (fs : FileSystem) (env : Environment) : List Path :=
  r.settingsPaths env ++ r.waiverPaths fs env ++ r.logPaths env ++ r.task.paths fs

end CommandLine

end ConnectionSecurity
