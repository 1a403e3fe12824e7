import ConnectionSecurity.Json
import ConnectionSecurity.Session
import ConnectionSecurity.Toml.Record

/-!
# Settings of the program

How much is logged, what is usual for secrets, and where the table of waivers is. Everything has a
default.
-/

namespace ConnectionSecurity

/-- How much is logged. -/
inductive LogLevel where
  | error
  | warn
  | info
  | debug
  | trace
deriving DecidableEq, Repr

namespace LogLevel

def name : LogLevel → String
  | error => "error"
  | warn => "warn"
  | info => "info"
  | debug => "debug"
  | trace => "trace"

def ofName? : String → Option LogLevel
  | "error" => some error
  | "warn" => some warn
  | "info" => some info
  | "debug" => some debug
  | "trace" => some trace
  | _ => none

/-- The filter that lets the messages of the program through, up to a level. -/
def directive (l : LogLevel) : String := "wsec=" ++ l.name

@[simp] theorem ofName?_name (l : LogLevel) : ofName? l.name = some l := by cases l <;> rfl

end LogLevel

/-- The settings of the program. -/
structure Settings where
  logLevel : LogLevel := .info
  secrets : SecretDefaults := {}
  /-- Where the table of waivers is, if not in the standard place. -/
  waiverFile : Option Path := none
deriving DecidableEq, Repr

namespace Settings

open Toml

/-! ## As a document -/

/-- The fields of a section, which may not have more than `count`. Here a date or time is a text and
no record. -/
def section? (v : Value) (count : Nat) : Option Fields :=
  match v with
  | .moment _ => none
  | v => (Fields.of? v).filter (·.fits count)

def path? : Value → Option Path
  | .text s => some s
  | .moment s => some s
  | _ => none

def general? (v : Value) : Option LogLevel := do
  let r ← section? v 1
  r.withDefault 0 "log_level" (Value.choice? LogLevel.ofName?) ({} : Settings).logLevel

def secrets? (v : Value) : Option SecretDefaults := do
  let r ← section? v 2
  let usual : SecretDefaults := {}
  return {
    policy := ← r.withDefault 0 "new_connection_policy" (Value.choice? Secret.Policy.ofName?)
      usual.policy
    systemCaCerts := ← r.withDefault 1 "system_ca_certs" Value.boolean? usual.systemCaCerts }

def waivers? (v : Value) : Option (Option Path) := do
  let r ← section? v 1
  r.optional 0 "path" path?

def ofValue? (v : Value) : Option Settings := do
  let r ← section? v 3
  let usual : Settings := {}
  return {
    logLevel := ← r.withDefault 0 "general" general? usual.logLevel
    secrets := ← r.withDefault 1 "secrets" secrets? usual.secrets
    waiverFile := ← r.withDefault 2 "ca_ignore" waivers? usual.waiverFile }

/-! ## As JSON -/

def generalJson (s : Settings) : Json := .object [("log_level", .text s.logLevel.name)]

def secretsJson (s : Settings) : Json :=
  .object [("new_connection_policy", .text s.secrets.policy.name),
    ("system_ca_certs", .boolean s.secrets.systemCaCerts)]

def waiversJson (s : Settings) : Json := .ofMembers [("path", s.waiverFile.map .text)]

def toJson (s : Settings) : Json :=
  .object [("general", s.generalJson), ("secrets", s.secretsJson), ("ca_ignore", s.waiversJson)]

end Settings

end ConnectionSecurity
