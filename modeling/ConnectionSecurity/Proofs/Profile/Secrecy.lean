import ConnectionSecurity.Proofs.Profile.Setting

/-!
# The secrets in a profile

A profile holds six kinds of secrets: WEP keys, a shared key, the password of LEAP, the password
of 802.1x and one for the private key of each phase. `blotted` takes them out; the flags beside
them and everything else stay.
-/

namespace ConnectionSecurity.Profile

/-! ## Blotting -/

/-- The setting without its secrets. -/
def WirelessSecurity.blotted (s : WirelessSecurity) : WirelessSecurity :=
  { s with wepKeys := Vector.replicate wepKeyCount none, psk := none, leapPassword := none }

/-- The certificate side without its secret. -/
def Credentials.blotted (c : Credentials) : Credentials := { c with privateKeyPassword := none }

/-- The credentials without their secrets. -/
def Authentication.blotted (a : Authentication) : Authentication :=
  { a with password := none, outer := a.outer.blotted, inner := a.inner.blotted }

/-- The profile without its secrets. -/
def blotted (p : Profile) : Profile :=
  { p with
    wirelessSecurity := p.wirelessSecurity.map (·.blotted)
    authentication := p.authentication.map (·.blotted) }

@[simp] theorem blotted_blotted (p : Profile) : p.blotted.blotted = p.blotted := by
  obtain ⟨connection, wireless, wirelessSecurity, authentication⟩ := p
  cases wirelessSecurity <;> cases authentication <;> rfl

/-! ## Profiles without secrets -/

/-- None of the secrets of the network is set. -/
structure WirelessSecurity.NoSecrets (s : WirelessSecurity) : Prop where
  wepKeys : ∀ index, s.wepKey index = none
  psk : s.psk = none
  leapPassword : s.leapPassword = none

/-- None of the secrets of 802.1x is set. -/
structure Authentication.NoSecrets (a : Authentication) : Prop where
  password : a.password = none
  privateKeyPassword : ∀ phase, (a.credentials phase).privateKeyPassword = none

/-- None of the secrets of a profile is set. -/
structure NoSecrets (p : Profile) : Prop where
  wirelessSecurity : ∀ s, p.wirelessSecurity = some s → s.NoSecrets
  authentication : ∀ a, p.authentication = some a → a.NoSecrets

/-- A new setting starts without secrets. -/
theorem WirelessSecurity.noSecrets_ofKeyMgmt (keyMgmt : String) :
    (ofKeyMgmt keyMgmt).NoSecrets where
  wepKeys index := by
    show (Vector.replicate wepKeyCount none)[index]?.join = none
    rw [Vector.getElem?_replicate]
    split <;> rfl
  psk := rfl
  leapPassword := rfl

theorem Authentication.noSecrets_bare (systemCaCerts : Bool) (password outer inner : Secret.Flags) :
    (bare systemCaCerts password outer inner).NoSecrets where
  password := rfl
  privateKeyPassword phase := by cases phase <;> rfl

theorem Authentication.NoSecrets.setCredentials {a : Authentication} {c : Credentials}
    (h : a.NoSecrets) (phase : Phase) (hc : c.privateKeyPassword = none) :
    (a.setCredentials phase c).NoSecrets where
  password := by cases phase <;> exact h.password
  privateKeyPassword phase' := by
    rw [credentials_setCredentials]
    split
    next => exact hc
    next => exact h.privateKeyPassword phase'

/-- A network that is secured without 802.1x holds the secrets of its setting only. -/
theorem NoSecrets.securedBy (p : Profile) {setting : WirelessSecurity} (h : setting.NoSecrets) :
    (p.securedBy setting).NoSecrets where
  wirelessSecurity s hs := Option.some.inj hs ▸ h
  authentication a ha := by cases ha

/-! ## What does not depend on secrets -/

variable (p : Profile)

@[simp] theorem clearSecurity_blotted : p.blotted.clearSecurity = p.clearSecurity := rfl

@[simp] theorem securedBy_blotted (setting : WirelessSecurity) :
    p.blotted.securedBy setting = p.securedBy setting := rfl

/-- Only the flags of secrets are kept of credentials, and flags are no secrets. -/
@[simp] theorem Authentication.renewed_map_blotted (a : Option Authentication) :
    renewed (a.map (·.blotted)) = renewed a := by
  cases a <;> rfl

end ConnectionSecurity.Profile
