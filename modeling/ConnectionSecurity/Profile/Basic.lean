import ConnectionSecurity.Profile.Setting

/-!
# Connection profiles

A profile has a connection and may have the other settings. The Wi-Fi network names the setting
that secures it; `secureWith` and `clearSecurity` keep that name and the setting together.
-/

namespace ConnectionSecurity

open Profile in
/-- A connection profile. -/
structure Profile where
  connection : Connection
  wireless : Option Wireless := none
  wirelessSecurity : Option WirelessSecurity := none
  authentication : Option Authentication := none
deriving DecidableEq, Repr

namespace Profile

/-- The name by which the network refers to the setting that secures it. -/
def wirelessSecurityName : String := "802-11-wireless-security"

def newWireless (id uuid ssid : String) : Profile where
  connection := { id, uuid }
  wireless := some { ssid := some ssid }

def newWired (id uuid : String) : Profile where
  connection := { id, uuid, medium := .wired }

def blank : Profile where
  connection := { id := "", uuid := "" }

/-- The name of the connection that does not change. -/
def uuid (p : Profile) : String := p.connection.uuid

def isWireless (p : Profile) : Bool := p.connection.medium == .wireless

/-- Whether the network has no access point. -/
def isAdhoc (p : Profile) : Bool :=
  match p.wireless with
  | some w => w.mode == .adhoc
  | none => false

/-- The name of the network, unless it is empty. -/
def ssid (p : Profile) : Option String :=
  (p.wireless.bind (·.ssid)).filter (!·.isEmpty)

/-- Change the network, which is made if it is missing. -/
def onWireless (p : Profile) (f : Wireless → Wireless) : Profile :=
  { p with wireless := some (f (p.wireless.getD {})) }

def secureWith (p : Profile) (setting : WirelessSecurity) : Profile :=
  { p.onWireless (fun w => { w with security := some wirelessSecurityName }) with
    wirelessSecurity := some setting }

def clearSecurity (p : Profile) : Profile :=
  { p with
    wireless := p.wireless.map fun w => { w with security := none }
    wirelessSecurity := none
    authentication := none }

@[simp] theorem connection_secureWith (p : Profile) (s : WirelessSecurity) :
    (p.secureWith s).connection = p.connection := rfl

@[simp] theorem wirelessSecurity_secureWith (p : Profile) (s : WirelessSecurity) :
    (p.secureWith s).wirelessSecurity = some s := rfl

@[simp] theorem authentication_secureWith (p : Profile) (s : WirelessSecurity) :
    (p.secureWith s).authentication = p.authentication := rfl

@[simp] theorem connection_clearSecurity (p : Profile) :
    p.clearSecurity.connection = p.connection := rfl

end Profile

end ConnectionSecurity
