import ConnectionSecurity.Profile.Basic

/-!
# Reading settings after they were written

The certificate sides of the two phases are independent, and securing a network touches only its
name for the setting that secures it.
-/

namespace ConnectionSecurity.Profile

namespace Authentication

variable (a : Authentication) (phase phase' : Phase) (c : Credentials)

theorem credentials_setCredentials :
    (a.setCredentials phase c).credentials phase' =
      if phase = phase' then c else a.credentials phase' := by
  cases phase <;> cases phase' <;> rfl

/-- A setting with nothing in it but flags of secrets and what counts besides the CA certificate. -/
def bare (systemCaCerts : Bool) (passwordFlags outerFlags innerFlags : Secret.Flags) :
    Authentication where
  systemCaCerts
  passwordFlags
  outer := { privateKeyPasswordFlags := outerFlags }
  inner := { privateKeyPasswordFlags := innerFlags }

theorem renewed_some : renewed (some a) =
    bare a.systemCaCerts a.passwordFlags (a.credentials .outer).privateKeyPasswordFlags
      (a.credentials .inner).privateKeyPasswordFlags := rfl

end Authentication

/-! ## Securing a network -/

theorem wepKeyCount_pos : 0 < wepKeyCount := by decide

variable (p : Profile) (s : WirelessSecurity)

@[simp] theorem isAdhoc_secureWith : (p.secureWith s).isAdhoc = p.isAdhoc := by
  unfold isAdhoc secureWith onWireless
  cases p.wireless <;> rfl

@[simp] theorem ssid_secureWith : (p.secureWith s).ssid = p.ssid := by
  unfold ssid secureWith onWireless
  cases p.wireless <;> rfl

/-- A network that is secured without 802.1x. -/
def securedBy (p : Profile) (s : WirelessSecurity) : Profile :=
  { p.secureWith s with authentication := none }

@[simp] theorem connection_securedBy : (p.securedBy s).connection = p.connection := rfl

@[simp] theorem wirelessSecurity_securedBy : (p.securedBy s).wirelessSecurity = some s := rfl

@[simp] theorem isAdhoc_securedBy : (p.securedBy s).isAdhoc = p.isAdhoc := p.isAdhoc_secureWith s

@[simp] theorem ssid_securedBy : (p.securedBy s).ssid = p.ssid := p.ssid_secureWith s

@[simp] theorem securedBy_securedBy : (p.securedBy s).securedBy s = p.securedBy s := rfl

/-! ## Taking the security away -/

@[simp] theorem isAdhoc_clearSecurity : p.clearSecurity.isAdhoc = p.isAdhoc := by
  unfold isAdhoc clearSecurity
  cases p.wireless <;> rfl

@[simp] theorem ssid_clearSecurity : p.clearSecurity.ssid = p.ssid := by
  unfold ssid clearSecurity
  cases p.wireless <;> rfl

@[simp] theorem clearSecurity_clearSecurity :
    p.clearSecurity.clearSecurity = p.clearSecurity := by
  unfold clearSecurity
  cases p.wireless <;> rfl

end ConnectionSecurity.Profile
