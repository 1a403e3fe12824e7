import ConnectionSecurity.Settings.Basic

/-!
# The schema of the settings

A JSON Schema that describes the document the settings are read from: its sections, what may stand
in them, and the defaults.
-/

namespace ConnectionSecurity.Settings.Schema

def alternative (name about : String) : Json :=
  .object [("description", .text about), ("type", .text "string"), ("const", .text name)]

/-- A choice between named alternatives. -/
def choice (about : String) (alternatives : List (String × String)) : Json :=
  .object [("description", .text about),
    ("oneOf", .array (alternatives.map fun (name, about) => alternative name about))]

def record (about : String) (properties : List (String × Json)) : Json :=
  .object [("description", .text about), ("type", .text "object"),
    ("properties", .object properties)]

/-- A property that a definition describes. -/
def referring (about definition : String) (usual : Json) : Json :=
  .object [("description", .text about), ("$ref", .text ("#/$defs/" ++ definition)),
    ("default", usual)]

def logLevel : Json :=
  choice "Default verbosity when `RUST_LOG` is unset."
    [(LogLevel.error.name, "Failures only."),
      (LogLevel.warn.name, "Warnings such as a certificate that could not be written."),
      (LogLevel.info.name, "Persistence and configuration events."),
      (LogLevel.debug.name, "Method switches and detection decisions."),
      (LogLevel.trace.name, "Everything, including span entry and exit.")]

def policy : Json :=
  choice "How a secret is persisted once the profile is saved."
    [(Secret.Policy.stored.name, "Written into the profile."),
      (Secret.Policy.agentOwned.name,
        "Handed to the privileged secret agent, which persists it."),
      (Secret.Policy.notSaved.name, "Never persisted. The user is asked every time.")]

def general : Json :=
  record "General settings that affect the whole engine, such as logging."
    [("log_level", referring "Logging level used when `RUST_LOG` is not set." "LogLevel"
      (.text ({} : Settings).logLevel.name))]

def secrets : Json :=
  let usual : SecretDefaults := {}
  record "Defaults applied to secret fields."
    [("new_connection_policy",
        referring
          "Storage policy given to every secret field of a connection that has\nnever been saved."
          "StoragePolicy" (.text usual.policy.name)),
      ("system_ca_certs",
        .object [("description",
            .text "Whether new 802.1x connections also trust the system CA store."),
          ("type", .text "boolean"), ("default", .boolean usual.systemCaCerts)])]

def waivers : Json :=
  record "Where the CA-ignore side table is stored."
    [("path", .object [
      ("description", .text "Table file. Defaults to `ca-ignore.toml` in the config directory."),
      ("type", .array [.text "string", .text "null"])])]

/-- The name of the version of JSON Schema. -/
def dialect : String := "https://json-schema.org/draft/2020-12/schema"

def document : Json :=
  let usual : Settings := {}
  .object [
    ("$schema", .text dialect),
    ("title", .text "EngineConfig"),
    ("description", .text "Main configuration structure for wsec."),
    ("type", .text "object"),
    ("properties", .object [
      ("general", referring "General application settings." "GeneralConfig" usual.generalJson),
      ("secrets", referring "Defaults for secret fields." "SecretsConfig" usual.secretsJson),
      ("ca_ignore", referring "CA-ignore side table location." "CaIgnoreConfig"
        usual.waiversJson)]),
    ("$defs", .object [
      ("GeneralConfig", general),
      ("LogLevel", logLevel),
      ("SecretsConfig", secrets),
      ("StoragePolicy", policy),
      ("CaIgnoreConfig", waivers)])]

end ConnectionSecurity.Settings.Schema
