import ConnectionSecurity.Proofs.Profile.Setting
import ConnectionSecurity.Security.Basic

/-!
# What a security writes

Each kind of security writes one setting, which is built from what was entered and from the flags
that the profile had beside its secrets (`write_eq`). Of the rest of the profile nothing changes
that the page asks about before it saves.
-/

namespace ConnectionSecurity

open Profile

variable {fs : FileSystem} {session : Session} {p : Profile} {waivers : Waiver.Table}

namespace Security

/-! ## The setting of the network -/

namespace Wep

variable {w : Wep}

/-- The setting that WEP writes. -/
def setting (w : Wep) (p : Profile) : WirelessSecurity where
  keyMgmt := "none"
  authAlg := some (if p.isAdhoc then WepAuth.openSystem else w.effectiveAuth).value
  wepKeys := w.writtenKeys
  wepTxKeyIndex := UInt32.ofNat w.index
  wepKeyType := some w.keyType
  wepKeyFlags := w.control.policy.applyTo (p.wirelessSecurity.elim .none (·.wepKeyFlags))

theorem write_eq : w.write p = p.securedBy (w.setting p) := by
  unfold write setting
  cases p.wirelessSecurity <;> rfl

end Wep

namespace Personal

variable {w : Personal}

/-- The setting that a shared key writes. -/
def setting (w : Personal) (p : Profile) : WirelessSecurity :=
  { w.management p.isAdhoc with
    psk := w.psk.writtenText
    pskFlags := w.psk.policy.applyTo (p.wirelessSecurity.elim .none (·.pskFlags)) }

theorem write_eq : w.write p = p.securedBy (w.setting p) := by
  unfold write setting
  cases p.wirelessSecurity <;> rfl

end Personal

namespace WirelessLeap

variable {w : WirelessLeap}

/-- The setting that LEAP writes. -/
def setting (w : WirelessLeap) (p : Profile) : WirelessSecurity where
  keyMgmt := "ieee8021x"
  authAlg := some "leap"
  leapUsername := some w.login.username
  leapPassword := w.login.password.writtenText
  leapPasswordFlags :=
    w.login.password.policy.applyTo (p.wirelessSecurity.elim .none (·.leapPasswordFlags))

theorem write_eq : w.write p = p.securedBy (w.setting p) := by
  unfold write setting
  cases p.wirelessSecurity <;> rfl

end WirelessLeap

/-! ## The credentials of 802.1x -/

namespace Enterprise

variable {w : Enterprise}

/-- The credentials that 802.1x writes. -/
def written (w : Enterprise) (fs : FileSystem) (session : Session) (p : Profile)
    (waivers : Waiver.Table) : Authentication :=
  (w.method.write fs session (base p session, waivers)).1

/-- A profile with credentials, in which a network is secured as well. -/
def secured (w : Enterprise) (p : Profile) (a : Authentication) : Profile :=
  let p := { p with authentication := some a }
  match w.medium with
  | .wireless => p.secureWith (.ofKeyMgmt w.keyMgmt)
  | .wired => { p with wirelessSecurity := none }

theorem write_eq :
    (w.write fs session p waivers).1 = w.secured p (w.written fs session p waivers) := by
  unfold write secured written
  cases w.medium <;> rfl

/-- Securing a profile again with the same credentials changes nothing. -/
theorem secured_secured (a : Authentication) : w.secured (w.secured p a) a = w.secured p a := by
  unfold secured
  cases w.medium <;> rfl

theorem authentication_write :
    (w.write fs session p waivers).1.authentication = some (w.written fs session p waivers) := by
  rw [write_eq, secured]
  cases w.medium <;> rfl

/-- The setting that credentials are written into is bare. -/
theorem base_eq_bare (p : Profile) (session : Session) : ∃ systemCaCerts password outer inner,
    base p session = .bare systemCaCerts password outer inner ∧
      (session.isNew = true → systemCaCerts = session.systemCaCerts) := by
  unfold base
  cases p.authentication with
  | none =>
      split
      next => exact ⟨_, _, _, _, rfl, fun _ => rfl⟩
      next h => exact ⟨_, _, _, _, rfl, fun hnew => absurd hnew h⟩
  | some a =>
      split
      next => exact ⟨_, _, _, _, rfl, fun _ => rfl⟩
      next h => exact ⟨_, _, _, _, rfl, fun hnew => absurd hnew h⟩

end Enterprise

/-! ## The rest of the profile -/

variable {s : Security}

theorem connection_write : (s.write fs session p waivers).1.connection = p.connection := by
  cases s with
  | wep w => simp only [Security.write, Wep.write_eq, connection_securedBy]
  | personal w => simp only [Security.write, Personal.write_eq, connection_securedBy]
  | leap w => simp only [Security.write, WirelessLeap.write_eq, connection_securedBy]
  | enterprise w =>
      simp only [Security.write, Enterprise.write_eq, Enterprise.secured]
      cases w.medium <;> rfl

theorem ssid_write : (s.write fs session p waivers).1.ssid = p.ssid := by
  cases s with
  | wep w => simp only [Security.write, Wep.write_eq, ssid_securedBy]
  | personal w => simp only [Security.write, Personal.write_eq, ssid_securedBy]
  | leap w => simp only [Security.write, WirelessLeap.write_eq, ssid_securedBy]
  | enterprise w =>
      simp only [Security.write, Enterprise.write_eq, Enterprise.secured]
      cases w.medium with
      | wired => rfl
      | wireless => exact ssid_secureWith _ _

theorem isAdhoc_write : (s.write fs session p waivers).1.isAdhoc = p.isAdhoc := by
  cases s with
  | wep w => simp only [Security.write, Wep.write_eq, isAdhoc_securedBy]
  | personal w => simp only [Security.write, Personal.write_eq, isAdhoc_securedBy]
  | leap w => simp only [Security.write, WirelessLeap.write_eq, isAdhoc_securedBy]
  | enterprise w =>
      simp only [Security.write, Enterprise.write_eq, Enterprise.secured]
      cases w.medium with
      | wired => rfl
      | wireless => exact isAdhoc_secureWith _ _

end Security

end ConnectionSecurity
