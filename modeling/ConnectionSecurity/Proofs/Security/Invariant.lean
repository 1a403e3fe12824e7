import ConnectionSecurity.Proofs.Method.Invariant
import ConnectionSecurity.Proofs.Profile.Setting
import ConnectionSecurity.Security.Basic

/-!
# What every edit of a security keeps

The security behind a menu entry stays behind that entry, fits the medium and the network it was
made for, and its secret stays sound (`Security.WellFormed`). This holds of everything an entry
makes, and every edit keeps it.
-/

namespace ConnectionSecurity

open Method

variable {fs : FileSystem} {session : Session} {waivers : Waiver.Table} {p : Profile}

/-! ## The menu of methods -/

theorem MethodKind.runsOver_ofSetting (a : Option Profile.Authentication) (medium : Medium) :
    (MethodKind.ofSetting a medium).runsOver medium = true := by
  cases h : ((a.bind fun a => a.eap.head?).bind ofName?).filter (·.runsOver medium) with
  | some k =>
      simp only [ofSetting, h, Option.getD_some]
      exact (Option.filter_eq_some_iff.1 h).2
  | none =>
      simp only [ofSetting, h, Option.getD_none]
      cases medium <;> rfl

namespace Security

/-! ## The shape of a security -/

/-- The security fits the medium and the kind of network that it was made for. -/
def Fits (medium : Medium) (adhoc : Bool) : Security → Prop
  | wep w => w.adhoc = adhoc
  | personal _ => True
  | enterprise w => w.medium = medium ∧ w.methodKind.runsOver medium = true ∧
      w.method.Fits w.methodKind
  | leap _ => True

/-- TLS runs inside the tunnel of 802.1x. -/
def tunnelsTls : Security → Bool
  | enterprise w => w.method.tunnelsTls
  | _ => false

/-- What holds of a security at all times. -/
structure WellFormed (kind : SecurityKind) (medium : Medium) (adhoc : Bool) (s : Security) :
    Prop where
  kind : s.kind = kind
  fits : s.Fits medium adhoc
  sound : s.secret.Sound

variable {kind : SecurityKind} {medium : Medium} {adhoc : Bool} {s : Security}

/-- What a menu entry makes is well formed. -/
theorem wellFormed_ofKind? (h : ofKind? kind p session waivers = some s) :
    s.WellFormed kind session.medium p.isAdhoc := by
  have henterprise : ∀ dynamicWep : Bool,
      (enterprise (.ofProfile dynamicWep p session waivers)).WellFormed
      (if dynamicWep then .dynamicWep else .wpaEnterprise) session.medium p.isAdhoc := fun _ =>
    ⟨rfl, ⟨rfl, MethodKind.runsOver_ofSetting _ _, AuthMethod.fits_make _ _ _ _⟩,
      AuthMethod.sound_make _ _ _ _⟩
  have hpersonal : ∀ sae : Bool, (personal (.ofProfile sae p session)).WellFormed
      (if sae then .sae else .wpaPsk) session.medium p.isAdhoc := by
    intro sae
    unfold Personal.ofProfile
    cases p.wirelessSecurity with
    | none => exact ⟨rfl, trivial, Secret.Control.sound_empty _⟩
    | some setting => exact ⟨rfl, trivial, Secret.Control.sound_setPolicy _ _⟩
  cases kind with
  | none => cases h
  | wep type =>
      obtain rfl := Option.some.inj h
      unfold Wep.ofProfile
      cases p.wirelessSecurity with
      | none => exact ⟨rfl, rfl, Secret.Control.sound_empty _⟩
      | some setting =>
          simp only
          split
          · exact ⟨rfl, rfl, Secret.Control.sound_setPolicy _ _⟩
          · exact ⟨rfl, rfl, Secret.Control.sound_empty _⟩
  | wpaPsk =>
      obtain rfl := Option.some.inj h
      exact hpersonal false
  | sae =>
      obtain rfl := Option.some.inj h
      exact hpersonal true
  | wpaEnterprise =>
      obtain rfl := Option.some.inj h
      exact henterprise false
  | dynamicWep =>
      obtain rfl := Option.some.inj h
      exact henterprise true
  | leap =>
      obtain rfl := Option.some.inj h
      unfold WirelessLeap.ofProfile
      cases p.wirelessSecurity with
      | none => exact ⟨rfl, trivial, Secret.Control.sound_empty _⟩
      | some setting => exact ⟨rfl, trivial, Secret.Control.sound_setPolicy _ _⟩

/-- Reading the stored secrets keeps a security well formed. -/
theorem WellFormed.loadSecrets (h : s.WellFormed kind medium adhoc) (p : Profile) :
    (s.loadSecrets p).WellFormed kind medium adhoc := by
  obtain ⟨hkind, hfits, hsound⟩ := h
  cases s with
  | wep w =>
      unfold Security.loadSecrets Wep.loadSecrets
      cases p.wirelessSecurity with
      | none => exact ⟨hkind, hfits, hsound⟩
      | some setting =>
          refine ⟨hkind, hfits, ?_⟩
          simp only [Security.secret]
          exact Secret.Control.sound_load _ _ _
  | personal w =>
      unfold Security.loadSecrets Personal.loadSecrets
      cases p.wirelessSecurity with
      | none => exact ⟨hkind, hfits, hsound⟩
      | some setting => exact ⟨hkind, hfits, Secret.Control.sound_load _ _ _⟩
  | enterprise w =>
      unfold Security.loadSecrets Enterprise.loadSecrets
      cases p.authentication with
      | none => exact ⟨hkind, hfits, hsound⟩
      | some a =>
          exact ⟨hkind, ⟨hfits.1, hfits.2.1, hfits.2.2.loadSecrets a⟩,
            AuthMethod.sound_loadSecrets _ _⟩
  | leap w =>
      unfold Security.loadSecrets WirelessLeap.loadSecrets
      cases p.wirelessSecurity with
      | none => exact ⟨hkind, hfits, hsound⟩
      | some setting => exact ⟨hkind, hfits, Secret.Control.sound_load _ _ _⟩

/-! ## Edits -/

/-- Choosing a method keeps 802.1x well formed. -/
theorem WellFormed.selectMethod {w w' : Enterprise} {k : MethodKind}
    (h : (enterprise w).WellFormed kind session.medium adhoc)
    (hs : w.selectMethod k session waivers = .ok w') :
    (enterprise w').WellFormed kind session.medium adhoc := by
  unfold Enterprise.selectMethod at hs
  split at hs
  next =>
    obtain rfl := Except.ok.inj hs
    exact h
  next =>
    obtain ⟨method, hswitch, rfl⟩ := Except.map_eq_ok.1 hs
    obtain ⟨hfits, hruns⟩ := AuthMethod.fits_switch hswitch
    exact ⟨h.kind, ⟨h.fits.1, hruns, hfits⟩, AuthMethod.sound_switch hswitch⟩

/-- Every edit keeps a security well formed. -/
theorem WellFormed.edit (h : s.WellFormed kind session.medium adhoc) (e : Edit) :
    (s.edit fs session waivers e).2.WellFormed kind session.medium adhoc := by
  cases e with
  | secret e =>
      cases s with
      | enterprise w => exact h
      | _ => exact ⟨h.kind, h.fits, h.sound.edit e⟩
  | wepAuth auth =>
      cases s with
      | wep w =>
          simp only [Security.edit, Wep.chooseAuth]
          split
          · exact h
          · exact ⟨h.kind, h.fits, h.sound⟩
      | _ => exact h
  | wepKey index =>
      cases s with
      | wep w =>
          simp only [Security.edit, Wep.selectKey]
          split
          next hselect =>
            split at hselect
            next =>
              obtain rfl := Except.ok.inj hselect
              exact ⟨h.kind, h.fits, h.sound.setText _⟩
            next => cases hselect
          next => exact h
      | _ => exact h
  | username v => cases s <;> exact ⟨h.kind, h.fits, h.sound⟩
  | selectMethod k =>
      cases s with
      | enterprise w =>
          cases hs : w.selectMethod k session waivers with
          | error r => simpa only [Security.edit, hs] using h
          | ok w' => simpa only [Security.edit, hs] using h.selectMethod hs
      | _ => exact h
  | method e =>
      cases s with
      | enterprise w =>
          exact ⟨h.kind, ⟨h.fits.1, h.fits.2.1, h.fits.2.2.edit e⟩,
            AuthMethod.sound_edit h.sound e⟩
      | _ => exact h

end Security

end ConnectionSecurity
