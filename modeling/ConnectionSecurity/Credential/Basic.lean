import ConnectionSecurity.Field

/-!
# Certificate and key files

A credential file has a format, is chosen for a purpose, and belongs to the outer method or to the
one inside its tunnel.
-/

namespace ConnectionSecurity

/-- The two phases of a connection that uses a tunnel. Without a tunnel there is only the outer. -/
inductive Phase where
  | outer
  | inner
deriving DecidableEq, Repr

namespace Credential

/-- How a credential file is encoded. -/
inductive Format where
  | der
  | pem
  /-- A container with a key and its certificate. -/
  | pkcs12
deriving DecidableEq, Repr

def Format.name : Format → String
  | der => "der"
  | pem => "pem"
  | pkcs12 => "pkcs12"

def Format.ofName? : String → Option Format
  | "der" => some der
  | "pem" => some pem
  | "pkcs12" => some pkcs12
  | _ => none

@[simp] theorem Format.ofName?_name (f : Format) : Format.ofName? f.name = some f := by
  cases f <;> rfl

/-- What a credential file is chosen for. -/
inductive Purpose where
  /-- To check the server. -/
  | ca
  /-- To show to the server. -/
  | clientCert
  /-- To prove that the certificate is one's own. -/
  | privateKey
deriving DecidableEq, Repr

def Purpose.field : Purpose → Field
  | ca => .caCert
  | clientCert => .clientCert
  | privateKey => .privateKey

def Purpose.label : Purpose → String
  | ca => "CA certificate"
  | clientCert => "user certificate"
  | privateKey => "private key"

end Credential

end ConnectionSecurity
