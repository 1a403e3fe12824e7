import ConnectionSecurity.Method.Tls
import ConnectionSecurity.Method.Tunnel

/-!
# Authentication methods

A method is a password method, TLS, LEAP, or a tunnel with another method inside. All questions
about a method are answered by recursion: a tunnel adds what its shell says and passes the rest to
the method inside. The method at the end of the chain, its leaf, has the user name and the secret.
-/

namespace ConnectionSecurity

open Method in
/-- An authentication method for 802.1x. -/
inductive AuthMethod where
  | password (m : Password)
  | tls (m : Tls)
  | leap (m : Leap)
  | tunnel (shell : Shell) (inner : AuthMethod)
deriving DecidableEq, Repr

namespace AuthMethod

def name : AuthMethod → String
  | password m => m.kind.name
  | tls _ => Method.Tls.name
  | leap _ => Method.Leap.name
  | tunnel t _ => t.kind.name

/-! ## The leaf -/

def secret : AuthMethod → Secret.Control
  | password m => m.login.password
  | tls m => m.keyPassword
  | leap m => m.login.password
  | tunnel _ inner => inner.secret

def onSecret (f : Secret.Control → Secret.Control) : AuthMethod → AuthMethod
  | password m => password { m with login.password := f m.login.password }
  | tls m => tls { m with keyPassword := f m.keyPassword }
  | leap m => leap { m with login.password := f m.login.password }
  | tunnel t inner => tunnel t (inner.onSecret f)

/-- The user name, or the identity for TLS. -/
def username : AuthMethod → String
  | password m => m.login.username
  | tls m => m.identity
  | leap m => m.login.username
  | tunnel _ inner => inner.username

/-- Enter the user name, or the identity for TLS. -/
def setUsername (name : String) : AuthMethod → AuthMethod
  | password m => password { m with login.username := name }
  | tls m => tls { m with identity := name }
  | leap m => leap { m with login.username := name }
  | tunnel t inner => tunnel t (inner.setUsername name)

def firstField : AuthMethod → Field
  | password _ => .username
  | tls _ => .identity
  | leap _ => .username
  | tunnel _ inner => inner.firstField

def secretKey : AuthMethod → String
  | password _ => "password"
  | tls m =>
    match m.phase with
    | .outer => "private-key-password"
    | .inner => "phase2-private-key-password"
  | leap _ => "password"
  | tunnel _ inner => inner.secretKey

def phase : AuthMethod → Phase
  | password m => if m.slot = .outer then .outer else .inner
  | tls m => m.phase
  | leap _ => .outer
  | tunnel .. => .outer

@[simp] theorem secret_onSecret (f : Secret.Control → Secret.Control) (m : AuthMethod) :
    (m.onSecret f).secret = f m.secret := by
  induction m with
  | tunnel t inner ih => simpa [onSecret, secret] using ih
  | _ => rfl

@[simp] theorem username_setUsername (name : String) (m : AuthMethod) :
    (m.setUsername name).username = name := by
  induction m with
  | tunnel t inner ih => simpa [setUsername, username] using ih
  | _ => rfl

@[simp] theorem secret_setUsername (name : String) (m : AuthMethod) :
    (m.setUsername name).secret = m.secret := by
  induction m with
  | tunnel t inner ih => simpa [setUsername, secret] using ih
  | _ => rfl

@[simp] theorem username_onSecret (f : Secret.Control → Secret.Control) (m : AuthMethod) :
    (m.onSecret f).username = m.username := by
  induction m with
  | tunnel t inner ih => simpa [onSecret, username] using ih
  | _ => rfl

/-! ## Validating, writing, reading -/

/-- Check the whole chain, up to the first fault. -/
def validate (fs : FileSystem) : AuthMethod → Except Fault Report
  | password m => m.login.validate
  | tls m => m.validate fs
  | leap m => m.login.validate
  | tunnel t inner => do
    let report ← t.validate fs
    return report ++ (← inner.validate fs)

/-- Write the whole chain, and the waivers of the connection. -/
def write (fs : FileSystem) (session : Session) :
    AuthMethod → Profile.Authentication × Waiver.Table → Profile.Authentication × Waiver.Table
  | password m, (a, waivers) => (m.write a, waivers)
  | tls m, state => m.write fs session state
  | leap m, (a, waivers) => (m.write a, waivers)
  | tunnel t inner, state => inner.write fs session (t.write fs session state)

def loadSecrets (a : Profile.Authentication) : AuthMethod → AuthMethod
  | password m => password { m with login := m.login.loadSecrets a }
  | tls m => tls (m.loadSecrets a)
  | leap m => leap { m with login := m.login.loadSecrets a }
  | tunnel t inner => tunnel t (inner.loadSecrets a)

end AuthMethod

end ConnectionSecurity
