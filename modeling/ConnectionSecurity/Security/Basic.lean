import ConnectionSecurity.Security.Enterprise
import ConnectionSecurity.Security.Kind
import ConnectionSecurity.Security.Personal
import ConnectionSecurity.Security.Wep
import ConnectionSecurity.Security.WirelessLeap

/-!
# Security of a connection

What stands behind an entry of the security menu. The entry for no security has nothing behind it.
-/

namespace ConnectionSecurity

/-- The security of a connection while it is edited. -/
inductive Security where
  | wep (w : Security.Wep)
  | personal (w : Security.Personal)
  | enterprise (w : Security.Enterprise)
  | leap (w : Security.WirelessLeap)
deriving DecidableEq, Repr

namespace Security

/-- The security behind a menu entry, filled from a profile, secrets apart. -/
def ofKind? (kind : SecurityKind) (p : Profile) (session : Session) (waivers : Waiver.Table) :
    Option Security :=
  match kind with
  | .none => none
  | .wep type => some (wep (.ofProfile type p session))
  | .wpaPsk => some (personal (.ofProfile false p session))
  | .sae => some (personal (.ofProfile true p session))
  | .wpaEnterprise => some (enterprise (.ofProfile false p session waivers))
  | .dynamicWep => some (enterprise (.ofProfile true p session waivers))
  | .leap => some (leap (.ofProfile p session))

def kind : Security → SecurityKind
  | wep w => .wep w.keyType
  | personal w => if w.sae then .sae else .wpaPsk
  | enterprise w => if w.dynamicWep then .dynamicWep else .wpaEnterprise
  | leap _ => .leap

/-- Whether a network without an access point can be secured this way. -/
def suitsAdhoc (s : Security) : Bool := s.kind.suitsAdhoc

def secret : Security → Secret.Control
  | wep w => w.control
  | personal w => w.psk
  | enterprise w => w.method.secret
  | leap w => w.login.password

/-- Check what was entered, up to the first fault. -/
def validate (fs : FileSystem) : Security → Except Fault Report
  | wep w => w.validate
  | personal w => w.validate
  | enterprise w => w.validate fs
  | leap w => w.validate

/-- Write into a profile, and write the waivers of the connection. -/
def write (fs : FileSystem) (session : Session) (s : Security) (p : Profile)
    (waivers : Waiver.Table) : Profile × Waiver.Table :=
  match s with
  | wep w => (w.write p, waivers)
  | personal w => (w.write p, waivers)
  | enterprise w => w.write fs session p waivers
  | leap w => (w.write p, waivers)

def loadSecrets (s : Security) (p : Profile) : Security :=
  match s with
  | wep w => wep (w.loadSecrets p)
  | personal w => personal (w.loadSecrets p)
  | enterprise w => enterprise (w.loadSecrets p)
  | leap w => leap (w.loadSecrets p)

/-! ## Edits -/

/-- Something a user does to the security of a connection. -/
inductive Edit where
  /-- Do something to the control of a shared secret: a WEP key, a shared key, a LEAP password. -/
  | secret (e : Secret.Control.Edit)
  /-- Choose the way to authenticate with WEP. -/
  | wepAuth (auth : WepAuth)
  /-- Show another WEP key. -/
  | wepKey (index : Nat)
  /-- Enter the user name of LEAP. -/
  | username (v : String)
  /-- Choose a method for 802.1x. -/
  | selectMethod (kind : MethodKind)
  /-- Edit the method for 802.1x. -/
  | method (e : Method.Edit)
deriving DecidableEq, Repr

open Method (Outcome) in
/-- The security after an edit, and how it went. -/
def edit (fs : FileSystem) (session : Session) (waivers : Waiver.Table) (s : Security) :
    Edit → Outcome × Security
  | .secret e =>
    match s with
    | wep w => (.done, wep { w with control := w.control.edit e })
    | personal w => (.done, personal { w with psk := w.psk.edit e })
    | leap w => (.done, leap { w with login.password := w.login.password.edit e })
    | enterprise _ => (.notApplicable, s)
  | .wepAuth auth =>
    match s with
    | wep w => (.done, wep (w.chooseAuth auth))
    | _ => (.notApplicable, s)
  | .wepKey index =>
    match s with
    | wep w =>
      match w.selectKey index with
      | .ok w => (.done, wep w)
      | .error r => (.refused r, s)
    | _ => (.notApplicable, s)
  | .username v =>
    match s with
    | leap w => (.done, leap { w with login.username := v })
    | _ => (.notApplicable, s)
  | .selectMethod kind =>
    match s with
    | enterprise w =>
      match w.selectMethod kind session waivers with
      | .ok w => (.done, enterprise w)
      | .error r => (.refused r, s)
    | _ => (.notApplicable, s)
  | .method e =>
    match s with
    | enterprise w =>
      let (outcome, method) := w.method.edit fs session e
      (outcome, enterprise { w with method })
    | _ => (.notApplicable, s)

end Security

end ConnectionSecurity
