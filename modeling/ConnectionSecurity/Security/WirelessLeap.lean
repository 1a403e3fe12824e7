import ConnectionSecurity.Method.Password

/-!
# LEAP in the setting of the network

LEAP can be set up beside the key management of the network, without 802.1x credentials. It asks for
a user name and a password like the method of the same name and writes them elsewhere.
-/

namespace ConnectionSecurity.Security

/-- Security by LEAP. -/
structure WirelessLeap where
  login : Method.Login
deriving DecidableEq, Repr

namespace WirelessLeap

/-- Filled from a profile, secrets apart. -/
def ofProfile (p : Profile) (session : Session) : WirelessLeap :=
  let control : Secret.Control := .empty session.defaultPolicy
  match p.wirelessSecurity with
  | some s => ⟨s.leapUsername.getD "", control.applyFlags s.leapPasswordFlags⟩
  | none => ⟨"", control⟩

/-- There has to be a user name, and a password unless it is asked for every time. -/
def validate (w : WirelessLeap) : Except Fault Report := w.login.validate

/-- Write the key management, the user name and the password. -/
def write (w : WirelessLeap) (p : Profile) : Profile :=
  let prior := match p.wirelessSecurity with
    | some s => s.leapPasswordFlags
    | none => .none
  { p.secureWith
    { keyMgmt := "ieee8021x"
      authAlg := some "leap"
      leapUsername := some w.login.username
      leapPassword := w.login.password.writtenText
      leapPasswordFlags := w.login.password.policy.applyTo prior } with
    authentication := none }

def loadSecrets (w : WirelessLeap) (p : Profile) : WirelessLeap :=
  match p.wirelessSecurity with
  | some s => ⟨{ w.login with password := w.login.password.load s.leapPassword s.leapPasswordFlags }⟩
  | none => w

end WirelessLeap

end ConnectionSecurity.Security
