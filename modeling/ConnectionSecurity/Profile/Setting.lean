import ConnectionSecurity.Credential.Check

/-!
# The settings of a profile

A profile is made of settings: what connection it is, the Wi-Fi network, how the network is
secured, and the credentials for 802.1x.
-/

namespace ConnectionSecurity

/-! ## The connection -/

/-- The link that a connection is made over. -/
inductive Medium where
  | wired
  | wireless
deriving DecidableEq, Repr

def Medium.label : Medium → String
  | wired => "wired"
  | wireless => "wireless"

namespace Profile

/-- What connection a profile is for. -/
structure Connection where
  /-- A name for people. -/
  id : String
  /-- The name that does not change. -/
  uuid : String
  medium : Medium := .wireless
deriving DecidableEq, Repr

/-! ## The Wi-Fi network -/

/-- How a station takes part in a Wi-Fi network. -/
inductive Mode where
  | infrastructure
  /-- There is no access point. -/
  | adhoc
  /-- The station is the access point. -/
  | ap
deriving DecidableEq, Repr

/-- The Wi-Fi network of a profile. -/
structure Wireless where
  ssid : Option String := none
  mode : Mode := .infrastructure
  /-- The name of the setting that secures the network. -/
  security : Option String := none
deriving DecidableEq, Repr

/-! ## The security of the network -/

/-- What a WEP key is given as. -/
inductive WepKeyType where
  | key
  /-- A phrase that the key is computed from. -/
  | passphrase
deriving DecidableEq, Repr

/-- The number of WEP keys that a profile holds. -/
abbrev wepKeyCount : Nat := 4

/-- How a Wi-Fi network is secured. -/
structure WirelessSecurity where
  keyMgmt : String
  authAlg : Option String := none
  proto : List String := []
  pairwise : List String := []
  group : List String := []
  wepKeys : Vector (Option String) wepKeyCount := Vector.replicate wepKeyCount none
  /-- The number of the key that is used to send. -/
  wepTxKeyIndex : UInt32 := 0
  wepKeyType : Option WepKeyType := none
  wepKeyFlags : Secret.Flags := .none
  psk : Option String := none
  pskFlags : Secret.Flags := .none
  leapUsername : Option String := none
  leapPassword : Option String := none
  leapPasswordFlags : Secret.Flags := .none
deriving DecidableEq, Repr

namespace WirelessSecurity

/-- Nothing but the key management. -/
def ofKeyMgmt (keyMgmt : String) : WirelessSecurity := { keyMgmt }

def wepKey (s : WirelessSecurity) (index : Nat) : Option String := s.wepKeys[index]?.join

/-- Replace the WEP key with a number; there is none beyond the fourth. -/
def setWepKey (s : WirelessSecurity) (index : Nat) (key : Option String) : WirelessSecurity :=
  { s with wepKeys := s.wepKeys.setIfInBounds index key }

end WirelessSecurity

/-! ## Credentials for 802.1x -/

/-- A credential file, with the format it had when it was chosen. -/
structure FileRef where
  path : Path
  format : Credential.Format
deriving DecidableEq, Repr

def FileRef.ofAccepted (file : Credential.Accepted) : FileRef := ⟨file.path, file.format⟩

/-- The certificate side of a phase: what checks the server and what is shown to it. -/
structure Credentials where
  caCert : Option FileRef := none
  clientCert : Option FileRef := none
  privateKey : Option FileRef := none
  privateKeyPassword : Option String := none
  privateKeyPasswordFlags : Secret.Flags := .none
deriving DecidableEq, Repr

/-- The credentials for 802.1x. -/
structure Authentication where
  /-- The names of the outer methods, the preferred one first. -/
  eap : List String := []
  identity : Option String := none
  /-- The identity that is sent before there is a tunnel. -/
  anonymousIdentity : Option String := none
  domainSuffixMatch : Option String := none
  systemCaCerts : Bool := false
  outer : Credentials := {}
  password : Option String := none
  passwordFlags : Secret.Flags := .none
  peapVersion : Option String := none
  fastProvisioning : Option String := none
  pacFile : Option Path := none
  /-- The method inside a tunnel. -/
  innerAuth : Option String := none
  /-- The method inside a tunnel that runs as EAP. -/
  innerAuthEap : Option String := none
  inner : Credentials := {}
deriving DecidableEq, Repr

namespace Authentication

def credentials (a : Authentication) : Phase → Credentials
  | .outer => a.outer
  | .inner => a.inner

def setCredentials (a : Authentication) (phase : Phase) (c : Credentials) : Authentication :=
  match phase with
  | .outer => { a with outer := c }
  | .inner => { a with inner := c }

/-- A new setting that keeps from an earlier one only the flags of its secrets and whether the
certificates of the system count. -/
def renewed (previous : Option Authentication) : Authentication :=
  match previous with
  | none => {}
  | some a =>
    { systemCaCerts := a.systemCaCerts
      passwordFlags := a.passwordFlags
      outer := { privateKeyPasswordFlags := a.outer.privateKeyPasswordFlags }
      inner := { privateKeyPasswordFlags := a.inner.privateKeyPasswordFlags } }

end Authentication

end Profile

end ConnectionSecurity
