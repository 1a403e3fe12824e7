import ConnectionSecurity.Method.Edit

/-!
# Security by 802.1x

Everybody proves who they are by a method of their own. The same wrapper serves WPA Enterprise,
dynamic WEP, and 802.1x over a wire.
-/

namespace ConnectionSecurity.Security

/-- Security by 802.1x. -/
structure Enterprise where
  /-- Dynamic WEP in place of WPA. -/
  dynamicWep : Bool
  medium : Medium
  /-- The menu entry of the method. -/
  methodKind : MethodKind
  method : AuthMethod
deriving DecidableEq, Repr

namespace Enterprise

/-- Filled from a profile, secrets apart. -/
def ofProfile (dynamicWep : Bool) (p : Profile) (session : Session) (waivers : Waiver.Table) :
    Enterprise :=
  let kind := MethodKind.ofSetting p.authentication session.medium
  { dynamicWep
    medium := session.medium
    methodKind := kind
    method := kind.make p.authentication session waivers }

def menu (w : Enterprise) : List MethodKind := MethodKind.menu w.medium

/-- Choose a method. What was typed is kept; the method that is chosen already stays as it is. -/
def selectMethod (w : Enterprise) (kind : MethodKind) (session : Session)
    (waivers : Waiver.Table) : Except Refusal Enterprise :=
  if kind = w.methodKind then .ok w
  else (Method.switch w.method kind session waivers).map fun method =>
    { w with methodKind := kind, method }

/-- Check the method. -/
def validate (w : Enterprise) (fs : FileSystem) : Except Fault Report := w.method.validate fs

/-- What the setting is built on: of an earlier one only the flags of secrets stay, and a new
connection gets what is usual about the certificates of the system. -/
def base (p : Profile) (session : Session) : Profile.Authentication :=
  let a := Profile.Authentication.renewed p.authentication
  if session.isNew then { a with systemCaCerts := session.systemCaCerts } else a

/-- The key management. -/
def keyMgmt (w : Enterprise) : String := if w.dynamicWep then "ieee8021x" else "wpa-eap"

/-- Write the method, and the waivers of the connection. A network gets its key management too. -/
def write (w : Enterprise) (fs : FileSystem) (session : Session) (p : Profile)
    (waivers : Waiver.Table) : Profile × Waiver.Table :=
  let (a, waivers) := w.method.write fs session (base p session, waivers)
  let p := { p with authentication := some a }
  match w.medium with
  | .wireless => (p.secureWith (.ofKeyMgmt w.keyMgmt), waivers)
  | .wired => ({ p with wirelessSecurity := none }, waivers)

def loadSecrets (w : Enterprise) (p : Profile) : Enterprise :=
  match p.authentication with
  | some a => { w with method := w.method.loadSecrets a }
  | none => w

end Enterprise

end ConnectionSecurity.Security
