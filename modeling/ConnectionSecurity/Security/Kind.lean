import ConnectionSecurity.Profile.Basic

/-!
# Types of security

The menu of the security page. A wired connection has only two entries: no security, and 802.1x,
which it shares with dynamic WEP.
-/

namespace ConnectionSecurity

/-- A type of security. -/
inductive SecurityKind where
  | none
  | wep (type : Profile.WepKeyType)
  | leap
  /-- 802.1x with keys of its own, or over a wire. -/
  | dynamicWep
  | wpaPsk
  | sae
  | wpaEnterprise
deriving DecidableEq, Repr

namespace SecurityKind

def label : SecurityKind → String
  | none => "None"
  | wep .key => "WEP 40/128-bit Key (Hex or ASCII)"
  | wep .passphrase => "WEP 128-bit Passphrase"
  | leap => "LEAP"
  | dynamicWep => "Dynamic WEP (802.1x)"
  | wpaPsk => "WPA & WPA2 Personal"
  | sae => "WPA3 Personal"
  | wpaEnterprise => "WPA & WPA2 Enterprise"

def menu : Medium → List SecurityKind
  | .wireless => [none, wep .key, wep .passphrase, leap, dynamicWep, wpaPsk, sae, wpaEnterprise]
  | .wired => [none, dynamicWep]

/-- Whether a network without an access point can be secured this way. -/
def suitsAdhoc : SecurityKind → Bool
  | none | wep _ | wpaPsk => true
  | _ => false

/-- The type that the security setting of a network stands for. -/
def ofWireless (s : Profile.WirelessSecurity) : SecurityKind :=
  match s.keyMgmt with
  | "none" => wep (s.wepKeyType.getD .key)
  | "ieee8021x" => if s.authAlg = some "leap" then leap else dynamicWep
  | "wpa-none" => wpaPsk
  | "wpa-psk" => wpaPsk
  | "sae" => sae
  | "wpa-eap" => wpaEnterprise
  | _ => none

/-- The type that a profile stands for. -/
def ofProfile (p : Profile) : SecurityKind :=
  match p.connection.medium with
  | .wired => if p.authentication.isSome then dynamicWep else none
  | .wireless =>
    match p.wirelessSecurity with
    | some s => ofWireless s
    | Option.none => none

end SecurityKind

end ConnectionSecurity
