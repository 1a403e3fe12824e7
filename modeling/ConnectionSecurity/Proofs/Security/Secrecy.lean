import ConnectionSecurity.Proofs.Method.Secrecy
import ConnectionSecurity.Proofs.Security.Written

/-!
# The secret of a security does not get around

`blotted` is a security as it looks without the texts of its secrets, those in the stash of WEP
included. Making one, filling it and editing it let no text flow into what is left (`blotted_edit`),
and under the policy that keeps no text the check and what is written depend on what is left alone
(`validate_blotted`, `write_blotted`).
-/

namespace ConnectionSecurity

open Profile Secret.Control

variable {fs : FileSystem} {session : Session} {waivers : Waiver.Table} {p : Profile}

/-- The edit without the text that it types or loads. -/
def Security.Edit.blotted : Edit → Edit
  | .secret e => .secret e.blotted
  | .method e => .method e.blotted
  | e => e

/-- WEP as it looks without the texts of its keys. -/
def Security.Wep.blotted (w : Wep) : Wep :=
  { w with stash := Vector.replicate wepKeyCount "", control := w.control.blotted }

namespace Security

/-- The security as it looks without the texts of its secrets. -/
def blotted : Security → Security
  | wep w => wep w.blotted
  | personal w => personal { w with psk := w.psk.blotted }
  | enterprise w => enterprise { w with method := w.method.blotted }
  | leap w => leap { w with login.password := w.login.password.blotted }

variable {s : Security}

@[simp] theorem policy_blotted : s.blotted.secret.policy = s.secret.policy := by
  cases s with
  | enterprise w => exact congrArg (·.policy) w.method.secret_blotted
  | _ => rfl

@[simp] theorem blotted_blotted : s.blotted.blotted = s.blotted := by
  cases s with
  | enterprise w =>
      exact congrArg (fun m => enterprise { w with method := m }) w.method.blotted_blotted
  | _ => rfl

/-! ## Making and filling a security -/

/-- The kind that a profile stands for is no secret. -/
theorem ofProfile_blotted (p : Profile) :
    SecurityKind.ofProfile p.blotted = SecurityKind.ofProfile p := by
  obtain ⟨connection, wireless, wirelessSecurity, authentication⟩ := p
  unfold SecurityKind.ofProfile
  cases authentication <;> cases wirelessSecurity <;> rfl

/-- A menu entry makes a security without looking at the secrets. -/
theorem ofKind?_blotted (kind : SecurityKind) (p : Profile) (session : Session)
    (waivers : Waiver.Table) :
    ofKind? kind p.blotted session waivers = ofKind? kind p session waivers := by
  have henterprise : ∀ dynamicWep, Enterprise.ofProfile dynamicWep p.blotted session waivers =
      Enterprise.ofProfile dynamicWep p session waivers := by
    intro dynamicWep
    show (let kind := MethodKind.ofSetting (p.authentication.map (·.blotted)) session.medium
      (⟨dynamicWep, session.medium, kind,
        kind.make (p.authentication.map (·.blotted)) session waivers⟩ : Enterprise)) = _
    simp only [AuthMethod.ofSetting_blotted, AuthMethod.make_blotted]
    rfl
  obtain ⟨connection, wireless, wirelessSecurity, authentication⟩ := p
  cases kind with
  | none => rfl
  | wep type => cases wirelessSecurity <;> rfl
  | wpaPsk => cases wirelessSecurity <;> rfl
  | sae => cases wirelessSecurity <;> rfl
  | leap => cases wirelessSecurity <;> rfl
  | wpaEnterprise => exact congrArg (some ∘ enterprise) (henterprise false)
  | dynamicWep => exact congrArg (some ∘ enterprise) (henterprise true)

/-- What is left of the secrets that are read does not depend on the stored texts. -/
theorem blotted_loadSecrets (s : Security) (p : Profile) :
    (s.loadSecrets p).blotted = (s.blotted.loadSecrets p.blotted).blotted := by
  obtain ⟨connection, wireless, wirelessSecurity, authentication⟩ := p
  cases s with
  | wep w =>
      cases wirelessSecurity with
      | none => rfl
      | some setting =>
          exact congrArg (fun control => wep { w.blotted with control })
            (w.control.blotted_load_eq _ _ _)
  | personal w =>
      cases wirelessSecurity with
      | none => rfl
      | some setting =>
          exact congrArg (fun psk => personal { w with psk }) (w.psk.blotted_load_eq _ _ _)
  | leap w =>
      cases wirelessSecurity with
      | none => rfl
      | some setting =>
          exact congrArg (fun password => leap ⟨{ w.login with password }⟩)
            (w.login.password.blotted_load_eq _ _ _)
  | enterprise w =>
      cases authentication with
      | none => exact (blotted_blotted (s := enterprise w)).symm
      | some a =>
          exact congrArg (fun method => enterprise { w with method })
            (w.method.blotted_loadSecrets a)

/-! ## Edits -/

/-- A method that is chosen takes nothing along but what was typed. -/
theorem blotted_selectMethod (w : Enterprise) (k : MethodKind) (session : Session)
    (waivers : Waiver.Table) :
    (w.selectMethod k session waivers).map (fun w => blotted (enterprise w)) =
      (Enterprise.selectMethod { w with method := w.method.blotted } k session waivers).map
        fun w => blotted (enterprise w) := by
  unfold Enterprise.selectMethod
  split
  next => exact congrArg Except.ok (blotted_blotted (s := enterprise w)).symm
  next =>
    obtain ⟨r, hold, hnew⟩ | ⟨made, made', hold, hnew, hmade⟩ := Except.map_eq_map
      (AuthMethod.blotted_switch w.method k session waivers)
    · rw [hold, hnew]
    · rw [hold, hnew]
      exact congrArg (fun method => Except.ok (enterprise { w with methodKind := k, method })) hmade

/-- The key that is shown next is one of the texts. -/
theorem Wep.blotted_showKey (w : Wep) (index : Fin wepKeyCount) :
    (w.showKey index).blotted = { w.blotted with index } :=
  congrArg (fun control => { w.blotted with index, control }) (w.control.blotted_setText _)

/-- **What an edit does to a security, the texts of its secrets apart, depends on nothing but the
rest of both.** -/
theorem blotted_edit (s : Security) (e : Edit) :
    (s.edit fs session waivers e).2.blotted =
      (s.blotted.edit fs session waivers e.blotted).2.blotted := by
  cases e with
  | secret e =>
      cases s with
      | wep w =>
          exact congrArg (fun control => wep { w.blotted with control }) (w.control.blotted_edit e)
      | personal w => exact congrArg (fun psk => personal { w with psk }) (w.psk.blotted_edit e)
      | leap w =>
          exact congrArg (fun password => leap ⟨{ w.login with password }⟩)
            (w.login.password.blotted_edit e)
      | enterprise w => exact (blotted_blotted (s := enterprise w)).symm
  | wepAuth auth =>
      cases s with
      | wep w =>
          obtain ⟨keyType, auth', adhoc, index, stash, control⟩ := w
          cases adhoc <;> rfl
      | _ => exact blotted_blotted.symm
  | wepKey index =>
      cases s with
      | wep w =>
          -- Whatever the control shows goes to the stash and back, and both are blotted.
          by_cases hindex : index < wepKeyCount
          · simp only [edit, Edit.blotted, blotted, Wep.selectKey, hindex, dif_pos,
              Wep.blotted_showKey]
            rfl
          · simp only [edit, Edit.blotted, blotted, Wep.selectKey, hindex, dif_neg,
              not_false_eq_true]
            rfl
      | _ => exact blotted_blotted.symm
  | username v =>
      cases s with
      | leap w => rfl
      | _ => exact blotted_blotted.symm
  | selectMethod k =>
      cases s with
      | enterprise w =>
          simp only [edit, Edit.blotted]
          show _ = ((enterprise { w with method := w.method.blotted }).edit fs session waivers
            (.selectMethod k)).2.blotted
          simp only [edit]
          obtain ⟨r, hold, hnew⟩ | ⟨made, made', hold, hnew, hmade⟩ :=
            Except.map_eq_map (blotted_selectMethod w k session waivers)
          · rw [hold, hnew]
            exact (blotted_blotted (s := enterprise w)).symm
          · rw [hold, hnew]
            exact hmade
      | _ => exact blotted_blotted.symm
  | method e =>
      cases s with
      | enterprise w =>
          exact congrArg (fun method => enterprise { w with method }) (w.method.blotted_edit e)
      | _ => exact blotted_blotted.symm

/-! ## Checking and writing without a text -/

/-- Under a policy that keeps no text, the check does not depend on the texts. -/
theorem validate_blotted (h : s.secret.policy.keepsText = false) :
    s.validate fs = s.blotted.validate fs := by
  cases s with
  | wep w =>
      have hfit : ∀ w : Wep, w.control.policy.keepsText = false → w.validate = .ok [] := by
        intro w hw
        unfold Wep.validate
        rw [if_neg (by simp [hw])]
        rfl
      exact (hfit w h).trans (hfit w.blotted h).symm
  | personal w =>
      have hfit : ∀ w : Personal, w.psk.policy.keepsText = false → w.validate = .ok [] := by
        intro w hw
        unfold Personal.validate
        rw [if_neg (by simp [hw])]
        rfl
      exact (hfit w h).trans (hfit { w with psk := w.psk.blotted } h).symm
  | leap w => exact AuthMethod.validate_login_blotted h
  | enterprise w => exact AuthMethod.validate_blotted h

/-- Under a policy that keeps no text, WEP writes no key. -/
theorem Wep.writtenKeys_of_not_kept {w : Wep} (h : w.control.policy.keepsText = false) :
    w.writtenKeys = Vector.replicate wepKeyCount none := by
  refine Vector.ext fun i hi => ?_
  simp [writtenKeys, h]

theorem Wep.setting_blotted {w : Wep} (h : w.control.policy.keepsText = false) (p : Profile) :
    w.setting p = w.blotted.setting p.blotted := by
  unfold setting
  rw [writtenKeys_of_not_kept h, writtenKeys_of_not_kept (w := w.blotted) h]
  obtain ⟨connection, wireless, wirelessSecurity, authentication⟩ := p
  cases wirelessSecurity <;> rfl

theorem Personal.setting_blotted {w : Personal} (h : w.psk.policy.keepsText = false)
    (p : Profile) : w.setting p = setting { w with psk := w.psk.blotted } p.blotted := by
  have htext : w.psk.writtenText = none := writtenText_of_not_kept h
  have htext' : w.psk.blotted.writtenText = none := writtenText_of_not_kept h
  simp only [setting, htext, htext']
  obtain ⟨connection, wireless, wirelessSecurity, authentication⟩ := p
  cases wirelessSecurity <;> rfl

theorem WirelessLeap.setting_blotted {w : WirelessLeap}
    (h : w.login.password.policy.keepsText = false) (p : Profile) :
    w.setting p = setting { w with login.password := w.login.password.blotted } p.blotted := by
  have htext : w.login.password.writtenText = none := writtenText_of_not_kept h
  have htext' : w.login.password.blotted.writtenText = none := writtenText_of_not_kept h
  simp only [setting, htext, htext']
  obtain ⟨connection, wireless, wirelessSecurity, authentication⟩ := p
  cases wirelessSecurity <;> rfl

/-- What is kept of the credentials of a profile is no secret. -/
theorem base_blotted (p : Profile) (session : Session) :
    Enterprise.base p.blotted session = Enterprise.base p session := by
  unfold Enterprise.base
  rw [← Authentication.renewed_map_blotted p.authentication]
  rfl

/-- Under a policy that keeps no text, what is written does not depend on the texts. -/
theorem write_blotted (h : s.secret.policy.keepsText = false) (p : Profile) :
    s.write fs session p waivers = s.blotted.write fs session p.blotted waivers := by
  cases s with
  | wep w =>
      show (w.write p, waivers) = (w.blotted.write p.blotted, waivers)
      rw [Wep.write_eq, Wep.write_eq, Wep.setting_blotted h, securedBy_blotted]
  | personal w =>
      show (w.write p, waivers) =
        (Personal.write { w with psk := w.psk.blotted } p.blotted, waivers)
      rw [Personal.write_eq, Personal.write_eq, Personal.setting_blotted h, securedBy_blotted]
  | leap w =>
      show (w.write p, waivers) =
        (WirelessLeap.write { w with login.password := w.login.password.blotted } p.blotted,
          waivers)
      rw [WirelessLeap.write_eq, WirelessLeap.write_eq, WirelessLeap.setting_blotted h,
        securedBy_blotted]
  | enterprise w =>
      have hwritten : w.method.write fs session (Enterprise.base p session, waivers) =
          w.method.blotted.write fs session (Enterprise.base p.blotted session, waivers) := by
        rw [base_blotted]
        exact AuthMethod.write_blotted h _
      show w.write fs session p waivers =
        Enterprise.write { w with method := w.method.blotted } fs session p.blotted waivers
      unfold Enterprise.write
      simp only [hwritten]
      cases w.medium <;> rfl

/-! ## No secret is written -/

theorem Wep.noSecrets_setting {w : Wep} (h : w.control.policy.keepsText = false) (p : Profile) :
    (w.setting p).NoSecrets where
  wepKeys index := by
    show (w.setting p).wepKeys[index]?.join = none
    unfold setting
    rw [writtenKeys_of_not_kept h, Vector.getElem?_replicate]
    split <;> rfl
  psk := rfl
  leapPassword := rfl

theorem Personal.noSecrets_management (w : Personal) (adhoc : Bool) :
    (w.management adhoc).NoSecrets := by
  unfold management
  cases w.sae with
  | true => exact WirelessSecurity.noSecrets_ofKeyMgmt "sae"
  | false =>
      cases adhoc with
      | true => exact ⟨(WirelessSecurity.noSecrets_ofKeyMgmt "").wepKeys, rfl, rfl⟩
      | false => exact WirelessSecurity.noSecrets_ofKeyMgmt "wpa-psk"

theorem Personal.noSecrets_setting {w : Personal} (h : w.psk.policy.keepsText = false)
    (p : Profile) : (w.setting p).NoSecrets where
  wepKeys := (w.noSecrets_management p.isAdhoc).wepKeys
  psk := writtenText_of_not_kept h
  leapPassword := (w.noSecrets_management p.isAdhoc).leapPassword

theorem WirelessLeap.noSecrets_setting {w : WirelessLeap}
    (h : w.login.password.policy.keepsText = false) (p : Profile) : (w.setting p).NoSecrets where
  wepKeys := (WirelessSecurity.noSecrets_ofKeyMgmt "").wepKeys
  psk := rfl
  leapPassword := writtenText_of_not_kept h

theorem Enterprise.noSecrets_written {w : Enterprise} (h : w.method.secret.policy.keepsText = false)
    (p : Profile) : (w.written fs session p waivers).NoSecrets := by
  obtain ⟨systemCaCerts, password, outer, inner, hbase, -⟩ := base_eq_bare p session
  refine AuthMethod.noSecrets_write h ?_
  rw [hbase]
  exact Authentication.noSecrets_bare systemCaCerts password outer inner

/-- Under a policy that keeps no text, the profile holds no secret once it is written. -/
theorem noSecrets_write (h : s.secret.policy.keepsText = false) (p : Profile) :
    (s.write fs session p waivers).1.NoSecrets := by
  cases s with
  | wep w =>
      show (w.write p).NoSecrets
      rw [Wep.write_eq]
      exact .securedBy p (Wep.noSecrets_setting h p)
  | personal w =>
      show (w.write p).NoSecrets
      rw [Personal.write_eq]
      exact .securedBy p (Personal.noSecrets_setting h p)
  | leap w =>
      show (w.write p).NoSecrets
      rw [WirelessLeap.write_eq]
      exact .securedBy p (WirelessLeap.noSecrets_setting h p)
  | enterprise w =>
      have hwritten : (w.written fs session p waivers).NoSecrets := Enterprise.noSecrets_written h p
      show (w.write fs session p waivers).1.NoSecrets
      rw [Enterprise.write_eq, Enterprise.secured]
      cases w.medium with
      | wireless =>
          exact ⟨fun s hs => Option.some.inj hs ▸ WirelessSecurity.noSecrets_ofKeyMgmt _,
            fun a ha => Option.some.inj ha ▸ hwritten⟩
      | wired => exact ⟨fun s hs => (by cases hs), fun a ha => Option.some.inj ha ▸ hwritten⟩

end Security

end ConnectionSecurity
