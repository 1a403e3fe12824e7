import ConnectionSecurity.Validation
import ConnectionSecurity.Waiver.Store

/-!
# Failures outside of validation

What can go wrong with files and documents, and what can go wrong when a page is saved.
-/

namespace ConnectionSecurity

/-- Why a file, a document or the configuration cannot be used. -/
inductive Failure where
  | configuration (component : String) (details : String)
  /-- An operation on a file failed. -/
  | file (path : Path) (details : String)
  /-- An operation failed that belongs to no particular file. -/
  | system (details : String)
  /-- A text is no document of its kind; `location` says where it was read. -/
  | notADocument (location : String)
  /-- Something cannot be written as a document. -/
  | notWritable (what : String) (details : String)
  | waiver (e : Waiver.StoreError)
deriving DecidableEq, Repr

def Failure.message : Failure → String
  | configuration component details =>
    "configuration validation failed for '" ++ component ++ "': " ++ details
  | file path details => "I/O error on '" ++ path ++ "': " ++ details
  | system details => "IO error: " ++ details
  | notADocument location => "failed to parse TOML at '" ++ location ++ "'"
  | notWritable what details => "failed to serialize " ++ what ++ " to TOML: " ++ details
  | waiver e => e.message

/-- Where a document was read: the canonical path of its file if it has one, the path otherwise,
and `string` without a file. -/
def documentLocation (fs : FileSystem) : Option Path → String
  | some p =>
    match fs.canonicalPath p with
    | .ok canonical => canonical
    | .error _ => p
  | none => "string"

/-- Why a page was not saved. -/
inductive SaveError where
  | fault (f : Fault)
  | waiver (e : Waiver.StoreError)
deriving DecidableEq, Repr

def SaveError.message : SaveError → String
  | fault f => f.message
  | waiver e => e.message

end ConnectionSecurity
