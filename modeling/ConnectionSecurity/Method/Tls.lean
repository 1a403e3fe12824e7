import ConnectionSecurity.Credential.Chooser
import ConnectionSecurity.Method.CaChooser
import ConnectionSecurity.Method.Password

/-!
# TLS

The user proves who they are by a private key and its certificate. A PKCS#12 key brings its
certificate along; the chooser of the user certificate is closed then.
-/

namespace ConnectionSecurity.Method

/-- TLS, on its own or inside a tunnel. -/
structure Tls where
  identity : String := ""
  ca : CaChooser
  clientCert : Option Path := none
  /-- The chooser of the user certificate is open. -/
  clientCertOpen : Bool := true
  privateKey : Option Path := none
  keyPassword : Secret.Control
deriving DecidableEq, Repr

namespace Tls

def name : String := "tls"

def phase (m : Tls) : Phase := m.ca.phase

def new (phase : Phase) (policy : Secret.Policy) : Tls :=
  { ca := .empty phase, keyPassword := .empty policy }

/-- Filled from a setting, if there is one, and the table of waivers. -/
def ofSetting (phase : Phase) (a : Option Profile.Authentication) (session : Session)
    (waivers : Waiver.Table) : Tls :=
  let m := { new phase session.defaultPolicy with ca := .ofSetting a phase session waivers }
  match a with
  | none => m
  | some a =>
    let c := a.credentials phase
    { m with
      identity := a.identity.getD ""
      keyPassword := m.keyPassword.applyFlags c.privateKeyPasswordFlags
      clientCert := c.clientCert.map (·.path)
      privateKey := c.privateKey.map (·.path)
      clientCertOpen := match c.privateKey with
        | some key => key.format != .pkcs12
        | none => true }

/-! ## Choosing files -/

/-- Choose the user certificate. Nothing happens while the chooser is closed. -/
def chooseClientCert (m : Tls) (path : Option Path) : Tls :=
  if m.clientCertOpen then { m with clientCert := path } else m

/-- Choose the private key. A PKCS#12 key takes the user certificate away and closes its chooser,
any other opens it. There is a warning for a key that anybody can open. -/
def choosePrivateKey (m : Tls) (fs : FileSystem) (path : Option Path) : Option Warning × Tls :=
  match path.bind (Credential.keyFormat? fs) with
  | some .pkcs12 =>
    (none, { m with privateKey := path, clientCert := none, clientCertOpen := false })
  | format =>
    let anybodyCanOpen (key : Path) := format.isSome && !Credential.holdsEncryptedKey fs key
    ((path.filter anybodyCanOpen).map .unencryptedPrivateKey,
      { m with privateKey := path, clientCertOpen := true })

/-! ## Validating and writing -/

/-- Check the key and its password. -/
def validateKey (m : Tls) (fs : FileSystem) : Except Fault Credential.Accepted := do
  match ← Credential.check fs m.privateKey .privateKey (some m.keyPassword) with
  | some key => return key
  | none => throw (.missingFile .privateKey)

/-- Identity, CA certificate, private key with its password, and the user certificate unless the key
brings it along. -/
def validate (m : Tls) (fs : FileSystem) : Except Fault Report := do
  if m.identity.isEmpty then throw (.missingField .identity)
  let report ← m.ca.validate fs
  let key ← m.validateKey fs
  let report :=
    report ++ if key.isOpenKey .privateKey then [.unencryptedPrivateKey key.path] else []
  if key.format != .pkcs12 then
    let _ ← Credential.check fs m.clientCert .clientCert none
  return report

/-- The reference to a file that is written for a purpose. A file with a fault is left out. -/
def reference (fs : FileSystem) (path : Option Path) (purpose : Credential.Purpose) :
    Option Profile.FileRef :=
  match Credential.check fs path purpose none with
  | .ok found => found.map .ofAccepted
  | .error _ => none

/-- The key that is written. -/
def keyReference (m : Tls) (fs : FileSystem) : Option Profile.FileRef :=
  reference fs m.privateKey .privateKey

/-- The user certificate that is written: the one in a PKCS#12 key, or the chosen one. -/
def clientReference (m : Tls) (fs : FileSystem) : Option Profile.FileRef :=
  match m.keyReference fs with
  | some ⟨path, .pkcs12⟩ => some ⟨path, .pkcs12⟩
  | _ => reference fs m.clientCert .clientCert

/-- The slot the name of the method is written to. -/
def slot (m : Tls) : Slot :=
  match m.phase with
  | .outer => .outer
  | .inner => .inner

/-- Write the key, the user certificate and the password of the key. -/
def writeKey (m : Tls) (fs : FileSystem) (c : Profile.Credentials) : Profile.Credentials :=
  { c with
    privateKey := m.keyReference fs
    clientCert := m.clientReference fs
    privateKeyPasswordFlags := m.keyPassword.policy.applyTo c.privateKeyPasswordFlags
    privateKeyPassword := m.keyPassword.writtenText }

/-- Write everything, and the waiver of the connection. -/
def write (m : Tls) (fs : FileSystem) (session : Session)
    (state : Profile.Authentication × Waiver.Table) : Profile.Authentication × Waiver.Table :=
  let a := { m.slot.write name state.1 with identity := some m.identity }
  let a := a.setCredentials m.phase (m.writeKey fs (a.credentials m.phase))
  m.ca.write fs session (a, state.2)

def loadSecrets (m : Tls) (a : Profile.Authentication) : Tls :=
  let c := a.credentials m.phase
  { m with keyPassword := m.keyPassword.load c.privateKeyPassword c.privateKeyPasswordFlags }

end Tls

end ConnectionSecurity.Method
