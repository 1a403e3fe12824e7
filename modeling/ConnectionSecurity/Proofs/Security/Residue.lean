import ConnectionSecurity.Proofs.Security.Written

/-!
# What a security takes over from a profile

A security is written over what the profile had before. All that it takes over is what the profile
says about the connection and the network, and the flags beside the secrets that it writes:
profiles that agree on these are the same once it was written (`write_congr`).
-/

namespace ConnectionSecurity

open Profile

variable {fs : FileSystem} {session : Session} {p q : Profile} {waivers : Waiver.Table}

/-- The flags that a profile has beside the secret of a network that is secured without 802.1x. -/
def Security.priorFlags (s : Security) (p : Profile) : Secret.Flags :=
  match s with
  | wep _ => p.wirelessSecurity.elim .none (·.wepKeyFlags)
  | personal _ => p.wirelessSecurity.elim .none (·.pskFlags)
  | leap _ => p.wirelessSecurity.elim .none (·.leapPasswordFlags)
  | enterprise _ => .none

/-- Two profiles agree on the connection, on the network, and on all that a security takes over. A
setting that is missing counts as empty. -/
structure Profile.AgreeFor (security : Option Security) (p q : Profile) : Prop where
  connection : p.connection = q.connection
  wireless : p.wireless = q.wireless
  secretFlags : ∀ s, security = some s → s.priorFlags p = s.priorFlags q
  systemCaCerts : (p.authentication.getD {}).systemCaCerts = (q.authentication.getD {}).systemCaCerts
  passwordFlags : (p.authentication.getD {}).passwordFlags = (q.authentication.getD {}).passwordFlags
  outerKeyFlags : (p.authentication.getD {}).outer.privateKeyPasswordFlags =
    (q.authentication.getD {}).outer.privateKeyPasswordFlags
  innerKeyFlags : (p.authentication.getD {}).inner.privateKeyPasswordFlags =
    (q.authentication.getD {}).inner.privateKeyPasswordFlags

namespace Profile

/-! ## Settings -/

/-- What is renewed is what counts of a setting, be it there or not. -/
theorem Authentication.renewed_eq (a : Option Authentication) : renewed a =
    bare (a.getD {}).systemCaCerts (a.getD {}).passwordFlags
      (a.getD {}).outer.privateKeyPasswordFlags (a.getD {}).inner.privateKeyPasswordFlags := by
  cases a <;> rfl

theorem isAdhoc_congr (h : p.wireless = q.wireless) : p.isAdhoc = q.isAdhoc := by
  unfold isAdhoc
  rw [h]

theorem ssid_congr (h : p.wireless = q.wireless) : p.ssid = q.ssid := by
  unfold ssid
  rw [h]

theorem clearSecurity_congr (hconnection : p.connection = q.connection)
    (hwireless : p.wireless = q.wireless) : p.clearSecurity = q.clearSecurity := by
  unfold clearSecurity
  rw [hconnection, hwireless]

theorem secureWith_congr {setting : WirelessSecurity} (hconnection : p.connection = q.connection)
    (hwireless : p.wireless = q.wireless) (hauthentication : p.authentication = q.authentication) :
    p.secureWith setting = q.secureWith setting := by
  unfold secureWith onWireless
  rw [hconnection, hwireless, hauthentication]

theorem securedBy_congr {setting : WirelessSecurity} (hconnection : p.connection = q.connection)
    (hwireless : p.wireless = q.wireless) : p.securedBy setting = q.securedBy setting := by
  unfold securedBy secureWith onWireless
  rw [hconnection, hwireless]

/-- Securing a network that is there changes neither its name nor its mode. -/
theorem network_secureWith (h : p.wireless ≠ none) (setting : WirelessSecurity) :
    (p.secureWith setting).wireless.map (·.ssid) = p.wireless.map (·.ssid) ∧
      (p.secureWith setting).wireless.map (·.mode) = p.wireless.map (·.mode) := by
  unfold secureWith onWireless
  cases hw : p.wireless with
  | none => exact absurd hw h
  | some w => exact ⟨rfl, rfl⟩

/-- Nor does taking the security away. -/
theorem network_clearSecurity (p : Profile) :
    p.clearSecurity.wireless.map (·.ssid) = p.wireless.map (·.ssid) ∧
      p.clearSecurity.wireless.map (·.mode) = p.wireless.map (·.mode) := by
  unfold clearSecurity
  cases p.wireless <;> exact ⟨rfl, rfl⟩

end Profile

namespace Security

variable {s : Security}

/-! ## Writing -/

theorem Enterprise.base_congr (h : AgreeFor (some s) p q) (session : Session) :
    base p session = base q session := by
  unfold base
  rw [Authentication.renewed_eq, Authentication.renewed_eq, h.systemCaCerts, h.passwordFlags,
    h.outerKeyFlags, h.innerKeyFlags]

theorem Enterprise.write_congr {w : Enterprise} (h : AgreeFor (some (enterprise w)) p q) :
    w.write fs session p waivers = w.write fs session q waivers := by
  have hsecured : ∀ a, w.secured p a = w.secured q a := by
    intro a
    unfold secured
    cases w.medium with
    | wireless => exact secureWith_congr h.connection h.wireless rfl
    | wired =>
        show Profile.mk _ _ _ _ = Profile.mk _ _ _ _
        rw [h.connection, h.wireless]
  apply Prod.ext
  · rw [write_eq, write_eq, hsecured, written, base_congr h]
    rfl
  · -- The waivers depend on the base, not on the way that the profile is secured.
    unfold write
    rw [base_congr h]
    cases w.medium <;> rfl

/-- **Nothing else stays.** Profiles that agree on what a security takes over are the same once it
was written, and so are the tables of waivers. -/
theorem write_congr (h : AgreeFor (some s) p q) :
    s.write fs session p waivers = s.write fs session q waivers := by
  have hadhoc := isAdhoc_congr h.wireless
  cases s with
  | wep w =>
      have hflags : p.wirelessSecurity.elim .none (·.wepKeyFlags) = q.wirelessSecurity.elim _ _ :=
        h.secretFlags _ rfl
      have hsetting : w.setting p = w.setting q := by rw [Wep.setting, hadhoc, hflags, Wep.setting]
      show (w.write p, waivers) = (w.write q, waivers)
      rw [Wep.write_eq, Wep.write_eq, hsetting, securedBy_congr h.connection h.wireless]
  | personal w =>
      have hflags : p.wirelessSecurity.elim .none (·.pskFlags) = q.wirelessSecurity.elim _ _ :=
        h.secretFlags _ rfl
      have hsetting : w.setting p = w.setting q := by
        rw [Personal.setting, hadhoc, hflags, Personal.setting]
      show (w.write p, waivers) = (w.write q, waivers)
      rw [Personal.write_eq, Personal.write_eq, hsetting, securedBy_congr h.connection h.wireless]
  | leap w =>
      have hflags : p.wirelessSecurity.elim .none (·.leapPasswordFlags) =
          q.wirelessSecurity.elim _ _ := h.secretFlags _ rfl
      have hsetting : w.setting p = w.setting q := by
        rw [WirelessLeap.setting, hflags, WirelessLeap.setting]
      show (w.write p, waivers) = (w.write q, waivers)
      rw [WirelessLeap.write_eq, WirelessLeap.write_eq, hsetting,
        securedBy_congr h.connection h.wireless]
  | enterprise w => exact Enterprise.write_congr h

/-- Writing changes neither the name nor the mode of a network that is there. Over a wire, where
there is none, 802.1x does not make one. -/
theorem network_write (h : p.wireless ≠ none ∨ ∃ w, s = enterprise w ∧ w.medium = .wired) :
    (s.write fs session p waivers).1.wireless.map (·.ssid) = p.wireless.map (·.ssid) ∧
      (s.write fs session p waivers).1.wireless.map (·.mode) = p.wireless.map (·.mode) := by
  cases s with
  | enterprise w =>
      simp only [Security.write, Enterprise.write_eq, Enterprise.secured]
      cases hmedium : w.medium with
      | wired => exact ⟨rfl, rfl⟩
      | wireless =>
          rcases h with h | ⟨w', heq, hwired⟩
          · exact network_secureWith (p := { p with authentication := _ }) h (.ofKeyMgmt w.keyMgmt)
          · cases heq
            cases hmedium.symm.trans hwired
  | wep w =>
      simp only [Security.write, Wep.write_eq]
      exact network_secureWith (h.resolve_right (by simp)) (w.setting p)
  | personal w =>
      simp only [Security.write, Personal.write_eq]
      exact network_secureWith (h.resolve_right (by simp)) (w.setting p)
  | leap w =>
      simp only [Security.write, WirelessLeap.write_eq]
      exact network_secureWith (h.resolve_right (by simp)) (w.setting p)

end Security

end ConnectionSecurity
