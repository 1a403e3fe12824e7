import ConnectionSecurity.Method.Basic

/-!
# The menu of methods

Seven methods can run on their own. Two of them make sense over one medium only and are missing from
the menu of the other. An entry makes a method, empty or filled from a setting.
-/

namespace ConnectionSecurity

/-- A method that can run on its own. -/
inductive MethodKind where
  | md5
  | tls
  | leap
  | pwd
  | fast
  | ttls
  | peap
deriving DecidableEq, Repr

namespace MethodKind

def all : List MethodKind := [md5, tls, leap, pwd, fast, ttls, peap]

def name : MethodKind → String
  | md5 => "md5"
  | tls => "tls"
  | leap => "leap"
  | pwd => "pwd"
  | fast => "fast"
  | ttls => "ttls"
  | peap => "peap"

def label : MethodKind → String
  | md5 => "MD5"
  | tls => "TLS"
  | leap => "LEAP"
  | pwd => "PWD"
  | fast => "FAST"
  | ttls => "Tunneled TLS"
  | peap => "Protected EAP (PEAP)"

/-- Whether the method makes sense over a medium. -/
def runsOver (k : MethodKind) (medium : Medium) : Bool :=
  match k with
  | md5 => medium == .wired
  | leap => medium == .wireless
  | _ => true

def menu (medium : Medium) : List MethodKind := all.filter (·.runsOver medium)

def ofName? (name : String) : Option MethodKind := all.find? fun k => Text.sameLetters k.name name

/-- The entry that a setting stands for: its first method if the menu has it, and else the first
entry of the menu. -/
def ofSetting (a : Option Profile.Authentication) (medium : Medium) : MethodKind :=
  let named := (a.bind fun a => a.eap.head?).bind ofName?
  (named.filter (·.runsOver medium)).getD
    (match medium with
      | .wired => md5
      | .wireless => tls)

/-- The refusal of a menu that does not have the entry. -/
def refusal (k : MethodKind) (medium : Medium) : Refusal :=
  ⟨k.label, medium.label ++ " 802.1x"⟩

/-- Make a tunnel with the method inside that a setting names. -/
def makeTunnel (k : Method.TunnelKind) (a : Option Profile.Authentication) (session : Session)
    (waivers : Waiver.Table) : AuthMethod :=
  let shell := Method.Shell.ofSetting k a session waivers
  .tunnel shell
    (.password (.ofSetting shell.innerKind.method (k.slot shell.innerKind) a session))

/-- Make the method, filled from a setting if there is one. -/
def make (k : MethodKind) (a : Option Profile.Authentication) (session : Session)
    (waivers : Waiver.Table) : AuthMethod :=
  match k with
  | md5 => .password (.ofSetting .md5 .outer a session)
  | pwd => .password (.ofSetting .pwd .outer a session)
  | tls => .tls (.ofSetting .outer a session waivers)
  | leap => .leap (.ofSetting a session)
  | fast => makeTunnel .fast a session waivers
  | ttls => makeTunnel .ttls a session waivers
  | peap => makeTunnel .peap a session waivers

/-- Make the method, if the menu has it. -/
def offer (k : MethodKind) (a : Option Profile.Authentication) (session : Session)
    (waivers : Waiver.Table) : Except Refusal AuthMethod :=
  if k.runsOver session.medium then .ok (k.make a session waivers)
  else .error (k.refusal session.medium)

end MethodKind

/-! ## Switching -/

namespace Method

/-- What a user has typed and takes along to another method. -/
structure Typed where
  username : String := ""
  secret : String := ""
  revealed : Bool := false
deriving DecidableEq, Repr, Inhabited

namespace Typed

/-- What was typed into a method. -/
def of (m : AuthMethod) : Typed := ⟨m.username, m.secret.text, m.secret.revealed⟩

/-- Type it into a method. A policy that keeps no text takes only the user name. -/
def into (t : Typed) (m : AuthMethod) : AuthMethod :=
  (m.setUsername t.username).onSecret fun c => (c.setText t.secret).reveal t.revealed

end Typed

/-- Make the method of a menu entry of a tunnel, if the menu has it. -/
def offerInner (tunnel : TunnelKind) (entry : InnerKind) (session : Session) :
    Except Refusal AuthMethod :=
  if tunnel.offers entry then
    .ok (.password (.ofSetting entry.method (tunnel.slot entry) none session))
  else .error ⟨entry.label, tunnel.label⟩

/-- The method of a menu entry of a tunnel, with what was typed into another. The policy is the one
that is usual for the session. -/
def switchInner (tunnel : TunnelKind) (old : AuthMethod) (entry : InnerKind) (session : Session) :
    Except Refusal AuthMethod :=
  (offerInner tunnel entry session).map (Typed.of old).into

/-- The method of a menu entry, with what was typed into another. -/
def switch (old : AuthMethod) (k : MethodKind) (session : Session) (waivers : Waiver.Table) :
    Except Refusal AuthMethod :=
  (k.offer none session waivers).map (Typed.of old).into

end Method

end ConnectionSecurity
