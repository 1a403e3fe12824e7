import ConnectionSecurity.Method.CaChooser
import ConnectionSecurity.Method.Password

/-!
# Tunnels

A tunnel checks the server first and runs another method inside. There are three kinds, each with a
menu of its own for the method inside and with options that only it has. What a tunnel has besides
the method inside is its shell.
-/

namespace ConnectionSecurity.Method

/-! ## Kinds and menus -/

/-- The kinds of tunnels. -/
inductive TunnelKind where
  | ttls
  | peap
  | fast
deriving DecidableEq, Repr

/-- What the menu of a tunnel may offer to run inside. -/
inductive InnerKind where
  | pap
  | chap
  | mschap
  | mschapv2
  /-- MSCHAPv2 run as EAP. -/
  | mschapv2Eap
  | md5
  | gtc
deriving DecidableEq, Repr

namespace InnerKind

/-- The method behind an entry. -/
def method : InnerKind → PasswordKind
  | pap => .pap
  | chap => .chap
  | mschap => .mschap
  | mschapv2 => .mschapv2
  | mschapv2Eap => .mschapv2
  | md5 => .md5
  | gtc => .gtc

/-- The entry for a method that does not run as EAP of its own accord. -/
def ofMethod? : PasswordKind → Option InnerKind
  | .pap => some pap
  | .chap => some chap
  | .mschap => some mschap
  | .mschapv2 => some mschapv2
  | .md5 => some md5
  | .gtc => some gtc
  | .pwd => none

def label : InnerKind → String
  | mschapv2Eap => "MSCHAPv2 (EAP)"
  | entry => entry.method.label

end InnerKind

namespace TunnelKind

def name : TunnelKind → String
  | ttls => "ttls"
  | peap => "peap"
  | fast => "fast"

def label : TunnelKind → String
  | ttls => "TTLS"
  | peap => "PEAP"
  | fast => "FAST"

/-- What may run inside, in the order of the menu. -/
def menu : TunnelKind → List InnerKind
  | ttls => [.pap, .chap, .mschap, .mschapv2, .mschapv2Eap, .md5, .gtc]
  | peap => [.mschapv2, .md5, .gtc]
  | fast => [.gtc, .mschapv2]

/-- What runs inside if a profile does not say. -/
def standard : TunnelKind → InnerKind
  | ttls => .pap
  | peap => .mschapv2
  | fast => .gtc

def offers (k : TunnelKind) (entry : InnerKind) : Bool := k.menu.contains entry

/-- The slot that the name of the method inside is written to. Only TTLS runs methods as EAP. -/
def slot : TunnelKind → InnerKind → Slot
  | ttls, .mschapv2Eap => .innerEap
  | ttls, .md5 => .innerEap
  | ttls, .gtc => .innerEap
  | _, _ => .inner

/-- The entry that the name in a slot stands for, if the menu has it. -/
def entry? (k : TunnelKind) (name : Option String) (asEap : Bool) : Option InnerKind := do
  let method ← PasswordKind.ofName? (← name)
  let entry ←
    if k = .ttls ∧ method = .mschapv2 ∧ asEap then some .mschapv2Eap
    else InnerKind.ofMethod? method
  if k.offers entry then return entry else none

/-- What a setting runs inside. -/
def innerOf (k : TunnelKind) (a : Option Profile.Authentication) : InnerKind :=
  let found := a.bind fun a =>
    (k.entry? a.innerAuth false).or (k.entry? a.innerAuthEap true)
  found.getD k.standard

end TunnelKind

/-! ## Options -/

/-- The version of the protocol of a PEAP tunnel. -/
inductive PeapVersion where
  | automatic
  | v0
  | v1
deriving DecidableEq, Repr

namespace PeapVersion

def value : PeapVersion → Option String
  | automatic => none
  | v0 => some "0"
  | v1 => some "1"

def ofValue : Option String → PeapVersion
  | some "0" => v0
  | some "1" => v1
  | _ => automatic

def label : PeapVersion → String
  | automatic => "Automatic"
  | v0 => "Version 0"
  | v1 => "Version 1"

end PeapVersion

/-- How a FAST tunnel gets its PAC. -/
inductive Provisioning where
  /-- Only from a file. -/
  | disabled
  | anonymous
  | authenticated
  | both
deriving DecidableEq, Repr

namespace Provisioning

def value : Provisioning → String
  | disabled => "0"
  | anonymous => "1"
  | authenticated => "2"
  | both => "3"

def ofValue : Option String → Provisioning
  | some "0" => disabled
  | some "2" => authenticated
  | some "3" => both
  | _ => anonymous

/-- Whether the PAC may come over the connection. -/
def isEnabled : Provisioning → Bool
  | disabled => false
  | _ => true

def label : Provisioning → String
  | disabled => "Disabled"
  | anonymous => "Anonymous"
  | authenticated => "Authenticated"
  | both => "Both"

end Provisioning

/-- What only one kind of tunnel has. -/
inductive TunnelOptions where
  | ttls (domainSuffix : String)
  | peap (version : PeapVersion)
  | fast (pacFile : Option Path) (provisioning : Provisioning)
deriving DecidableEq, Repr

namespace TunnelOptions

def kind : TunnelOptions → TunnelKind
  | ttls _ => .ttls
  | peap _ => .peap
  | fast .. => .fast

def ofSetting (k : TunnelKind) (a : Option Profile.Authentication) : TunnelOptions :=
  match k with
  | .ttls => ttls ((a.bind (·.domainSuffixMatch)).getD "")
  | .peap => peap (.ofValue (a.bind (·.peapVersion)))
  | .fast => fast (a.bind (·.pacFile)) (.ofValue (a.bind (·.fastProvisioning)))

/-- Without provisioning a FAST tunnel needs a PAC file. -/
def validate : TunnelOptions → Except Fault Unit
  | fast pacFile provisioning =>
    if provisioning.isEnabled || (Credential.chosen? pacFile).isSome then .ok ()
    else .error (.missingFile .pacFile)
  | _ => .ok ()

/-- Write the options. -/
def write (o : TunnelOptions) (a : Profile.Authentication) : Profile.Authentication :=
  match o with
  | ttls suffix => { a with domainSuffixMatch := if suffix.isEmpty then none else some suffix }
  | peap version => { a with peapVersion := version.value }
  | fast pacFile provisioning =>
    { a with fastProvisioning := some provisioning.value, pacFile }

@[simp] theorem kind_ofSetting (k : TunnelKind) (a : Option Profile.Authentication) :
    (ofSetting k a).kind = k := by cases k <;> rfl

end TunnelOptions

/-! ## Shells -/

/-- A tunnel without the method inside. -/
structure Shell where
  options : TunnelOptions
  /-- The identity that is sent before there is a tunnel. -/
  anonymousIdentity : String
  ca : CaChooser
  /-- The menu entry of the method inside. -/
  innerKind : InnerKind
deriving DecidableEq, Repr

namespace Shell

def kind (t : Shell) : TunnelKind := t.options.kind

/-- Filled from a setting, if there is one, and the table of waivers. -/
def ofSetting (k : TunnelKind) (a : Option Profile.Authentication) (session : Session)
    (waivers : Waiver.Table) : Shell where
  options := .ofSetting k a
  anonymousIdentity := (a.bind (·.anonymousIdentity)).getD ""
  ca := .ofSetting a .outer session waivers
  innerKind := k.innerOf a

/-- The options, then the CA certificate. -/
def validate (t : Shell) (fs : FileSystem) : Except Fault Report := do
  t.options.validate
  t.ca.validate fs

/-- Write everything but the method inside, and the waiver of the connection. -/
def write (t : Shell) (fs : FileSystem) (session : Session)
    (state : Profile.Authentication × Waiver.Table) : Profile.Authentication × Waiver.Table :=
  let identity := if t.anonymousIdentity.isEmpty then none else some t.anonymousIdentity
  let a := { Slot.outer.write t.kind.name state.1 with anonymousIdentity := identity }
  let (a, waivers) := t.ca.write fs session (a, state.2)
  (t.options.write a, waivers)

end Shell

end ConnectionSecurity.Method
