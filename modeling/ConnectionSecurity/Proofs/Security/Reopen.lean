import ConnectionSecurity.Proofs.Method.Fit
import ConnectionSecurity.Proofs.Security.Invariant
import ConnectionSecurity.Proofs.Security.Written

/-!
# Reading back a security that was written

`reopened` says what becomes of a security that is written and read back. The profile stands for its
menu entry again (`ofProfile_write`), and that entry makes exactly this out of it
(`ofKind?_write`). It is fit if the security was (`validate_reopened`), and written again it leaves
the profile as it is (`write_reopened`).
-/

namespace ConnectionSecurity

namespace Security

open Method Profile

variable {fs fs' : FileSystem} {session session' : Session} {row : Waiver.Row} {p : Profile}
  {report : Report}

/-! ## WEP -/

namespace Wep

variable {w : Wep}

/-- Keys without the one that is shown. -/
def hide (keys : Vector String wepKeyCount) (index : Fin wepKeyCount) : Vector String wepKeyCount :=
  keys.set index "" index.isLt

/-- The four keys as they are read back. -/
def reopened (w : Wep) : Wep where
  keyType := w.keyType
  auth := w.effectiveAuth
  adhoc := w.adhoc
  index := w.index
  stash := hide (w.writtenKeys.map (·.getD "")) w.index
  control := w.control.concealed

theorem writtenKeys_get? {i : Nat} (hi : i < wepKeyCount) : w.writtenKeys[i]? =
    some (if w.control.policy.keepsText then (w.key? i).filter (!·.isEmpty) else none) := by
  simp [writtenKeys, hi]

/-- The key that is shown is written like any other secret. -/
theorem writtenKeys_index : w.writtenKeys[w.index.val]? = some w.control.writtenText := by
  rw [writtenKeys_get? w.index.isLt, key?, if_pos rfl, Secret.Control.writtenText]
  cases w.control.policy.keepsText <;> simp [Option.filter, Secret.Control.isEmpty]

theorem wepTxKeyIndex_setting (w : Wep) (p : Profile) :
    (w.setting p).wepTxKeyIndex.toNat = w.index := by
  have hlt : w.index.val < wepKeyCount := w.index.isLt
  show (UInt32.ofNat w.index).toNat = w.index
  rw [UInt32.toNat_ofNat']
  exact Nat.mod_eq_of_lt (by unfold wepKeyCount at hlt; omega)

/-- The number of the key that is shown is read back. -/
theorem index_setting : (if h : (w.setting p).wepTxKeyIndex.toNat < wepKeyCount then
    (⟨(w.setting p).wepTxKeyIndex.toNat, h⟩ : Fin wepKeyCount) else 0) = w.index := by
  have hlt : (w.setting p).wepTxKeyIndex.toNat < wepKeyCount := by
    rw [wepTxKeyIndex_setting]
    exact w.index.isLt
  rw [dif_pos hlt]
  exact Fin.ext (w.wepTxKeyIndex_setting p)

/-- The way to authenticate is read back, as far as it counts. -/
theorem auth_setting (hadhoc : w.adhoc = p.isAdhoc) :
    (if !p.isAdhoc && (w.setting p).authAlg == some "shared" then WepAuth.shared
      else .openSystem) = w.effectiveAuth := by
  unfold setting effectiveAuth
  rw [hadhoc]
  cases p.isAdhoc <;> cases w.auth <;> rfl

/-- Without the keys, WEP that is filled from what another one wrote. -/
theorem ofProfile_write (hadhoc : w.adhoc = p.isAdhoc) (session : Session) :
    Wep.ofProfile w.keyType (w.write p) session =
      { keyType := w.keyType, auth := w.effectiveAuth, adhoc := w.adhoc, index := w.index,
        control := .empty w.control.policy } := by
  have hcontrol :
      (Secret.Control.empty session.defaultPolicy).applyFlags (w.setting p).wepKeyFlags =
      .empty w.control.policy := by
    rw [Secret.Control.applyFlags_empty]
    exact congrArg _ (Secret.Policy.ofFlags_applyTo _ _)
  rw [write_eq]
  unfold ofProfile
  simp only [wirelessSecurity_securedBy, isAdhoc_securedBy, index_setting, auth_setting hadhoc,
    hcontrol]
  rw [if_pos (show (w.setting p).keyMgmt = "none" from rfl), hadhoc]

/-- WEP that is filled from what another one wrote has the same keys. -/
theorem loadSecrets_write (hadhoc : w.adhoc = p.isAdhoc) (h : w.control.Sound) (session : Session) :
    (Wep.ofProfile w.keyType (w.write p) session).loadSecrets (w.write p) = w.reopened := by
  have hshown : (w.writtenKeys.map (·.getD ""))[w.index] = w.control.writtenText.getD "" := by
    have hkey : w.writtenKeys[w.index] = w.control.writtenText := Option.some.inj
      ((Vector.getElem?_eq_getElem w.index.isLt).symm.trans writtenKeys_index)
    rw [← hkey]
    simp
  have hload := Secret.Control.load_getD_writtenText h (d := .empty w.control.policy) rfl rfl
    (p.wirelessSecurity.elim .none (·.wepKeyFlags))
  rw [ofProfile_write hadhoc, write_eq, loadSecrets, wirelessSecurity_securedBy]
  unfold reopened
  rw [← hload, ← hshown]
  rfl

theorem key?_of_eq {i : Nat} (h : i = w.index) : w.key? i = some w.control.text := if_pos h

theorem key?_of_ne {i : Nat} (h : i ≠ w.index) : w.key? i = w.stash[i]? := if_neg h

/-- Every key that is kept is read back as it was. -/
theorem key?_reopened (h : w.control.policy.keepsText = true) (i : Nat) :
    w.reopened.key? i = w.key? i := by
  by_cases hindex : i = w.index
  · rw [key?_of_eq hindex, key?_of_eq (w := w.reopened) hindex]
    rfl
  -- A key that is not shown is read back from the profile, where an empty one is not written.
  · rw [key?_of_ne hindex, key?_of_ne (w := w.reopened) hindex]
    by_cases hi : i < wepKeyCount
    · have hget := writtenKeys_get? (w := w) hi
      rw [if_pos h, key?_of_ne hindex, Vector.getElem?_eq_getElem hi,
        Vector.getElem?_eq_getElem hi] at hget
      have hget := Option.some.inj hget
      have hstash : w.reopened.stash[i]? =
          some (((some w.stash[i]).filter (!·.isEmpty)).getD "") := by
        rw [← hget]
        simp [reopened, hide, hi, Ne.symm hindex]
      rw [hstash, Vector.getElem?_eq_getElem hi]
      cases hempty : w.stash[i].isEmpty with
      | true => simp [Option.filter, String.isEmpty_iff.1 hempty]
      | false => simp [Option.filter, hempty]
    · rw [Vector.getElem?_eq_none (Nat.le_of_not_lt hi),
        Vector.getElem?_eq_none (Nat.le_of_not_lt hi)]

/-- The keys that are read back are written again. -/
theorem writtenKeys_reopened : w.reopened.writtenKeys = w.writtenKeys := by
  refine Vector.ext fun i hi => ?_
  have hnew := writtenKeys_get? (w := w.reopened) hi
  have hold := writtenKeys_get? (w := w) hi
  rw [Vector.getElem?_eq_getElem hi] at hnew hold
  rw [Option.some.inj hnew, Option.some.inj hold]
  have hpolicy : w.reopened.control.policy = w.control.policy := rfl
  rw [hpolicy]
  split
  next hk => rw [key?_reopened hk]
  next => rfl

theorem effectiveAuth_reopened : w.reopened.effectiveAuth = w.effectiveAuth := by
  show (if w.adhoc then WepAuth.openSystem else w.effectiveAuth) = w.effectiveAuth
  unfold effectiveAuth
  cases w.adhoc <;> rfl

/-- Once it is read back, WEP writes what it wrote before. -/
theorem write_reopened : w.reopened.write (w.write p) = w.write p := by
  have hsetting : w.reopened.setting (p.securedBy (w.setting p)) = w.setting p := by
    rw [setting, effectiveAuth_reopened, writtenKeys_reopened, isAdhoc_securedBy]
    exact congrArg (fun flags => { w.setting p with wepKeyFlags := flags })
      (Secret.Policy.applyTo_applyTo w.control.policy _)
  rw [write_eq, write_eq, hsetting, securedBy_securedBy]

end Wep

/-! ## A shared key -/

namespace Personal

variable {w : Personal}

/-- The shared key as it is read back. -/
def reopened (w : Personal) : Personal := { w with psk := w.psk.concealed }

/-- A shared key that is filled from what another one wrote is the same. -/
theorem loadSecrets_write (h : w.psk.Sound) (session : Session) :
    (Personal.ofProfile w.sae (w.write p) session).loadSecrets (w.write p) = w.reopened := by
  have hload := Secret.Control.load_writtenText h (d := .empty w.psk.policy) rfl rfl
    (p.wirelessSecurity.elim .none (·.pskFlags))
  have hcontrol : (Secret.Control.empty session.defaultPolicy).applyFlags (w.setting p).pskFlags =
      .empty w.psk.policy := by
    rw [Secret.Control.applyFlags_empty]
    exact congrArg _ (Secret.Policy.ofFlags_applyTo _ _)
  rw [write_eq]
  unfold ofProfile loadSecrets
  simp only [wirelessSecurity_securedBy, hcontrol]
  exact congrArg (Personal.mk w.sae) hload

/-- Once it is read back, a shared key writes what it wrote before. -/
theorem write_reopened : w.reopened.write (w.write p) = w.write p := by
  have hsetting : w.reopened.setting (p.securedBy (w.setting p)) = w.setting p := by
    rw [setting, isAdhoc_securedBy]
    exact congrArg (fun flags => { w.setting p with pskFlags := flags })
      (Secret.Policy.applyTo_applyTo w.psk.policy _)
  rw [write_eq, write_eq, hsetting, securedBy_securedBy]

end Personal

/-! ## LEAP -/

namespace WirelessLeap

variable {w : WirelessLeap}

/-- LEAP that is filled from what another one wrote has the same user name and password. -/
theorem loadSecrets_write (h : w.login.password.Sound) (session : Session) :
    (WirelessLeap.ofProfile (w.write p) session).loadSecrets (w.write p) = ⟨w.login.reopened⟩ := by
  have hload := Secret.Control.load_writtenText h (d := .empty w.login.password.policy) rfl rfl
    (p.wirelessSecurity.elim .none (·.leapPasswordFlags))
  have hcontrol : (Secret.Control.empty session.defaultPolicy).applyFlags
      (w.setting p).leapPasswordFlags = .empty w.login.password.policy := by
    rw [Secret.Control.applyFlags_empty]
    exact congrArg _ (Secret.Policy.ofFlags_applyTo _ _)
  rw [write_eq]
  unfold ofProfile loadSecrets
  simp only [wirelessSecurity_securedBy, hcontrol]
  exact congrArg (fun control => WirelessLeap.mk ⟨w.login.username, control⟩) hload

/-- Once it is read back, LEAP writes what it wrote before. -/
theorem write_reopened : (⟨w.login.reopened⟩ : WirelessLeap).write (w.write p) = w.write p := by
  have hsetting : (⟨w.login.reopened⟩ : WirelessLeap).setting (p.securedBy (w.setting p)) =
      w.setting p :=
    congrArg (fun flags => { w.setting p with leapPasswordFlags := flags })
      (Secret.Policy.applyTo_applyTo w.login.password.policy _)
  rw [write_eq, write_eq, hsetting, securedBy_securedBy]

end WirelessLeap

/-! ## 802.1x -/

namespace Enterprise

variable {w : Enterprise} {waivers waivers' : Waiver.Table}

/-- The method as it is read back. -/
def reopened (w : Enterprise) (fs : FileSystem) (row : Waiver.Row) : Enterprise :=
  { w with method := w.method.reopened fs row }

/-- The method that is filled from what 802.1x wrote: that of the same menu entry. -/
theorem method_loadSecrets_write (hruns : w.methodKind.runsOver session.medium = true)
    (hfits : w.method.Fits w.methodKind) (hmedium' : session'.medium = session.medium)
    (dynamicWep : Bool) :
    let p' := (w.write fs session p waivers).1
    let a := w.written fs session p waivers
    (Enterprise.ofProfile dynamicWep p' session' waivers').loadSecrets p' =
      ⟨dynamicWep, session.medium, w.methodKind,
        (w.methodKind.make (some a) session' waivers').loadSecrets a⟩ := by
  intro p' a
  have hauthentication : p'.authentication = some a := authentication_write
  have hkind : MethodKind.ofSetting (some a) session.medium = w.methodKind :=
    AuthMethod.ofSetting_write _ _ hfits hruns
  unfold ofProfile loadSecrets
  simp only [hauthentication, hmedium', hkind]

/-- 802.1x that is filled from what another one wrote has the same settings. -/
theorem loadSecrets_write (fs : FileSystem) (p : Profile) (waivers waivers' : Waiver.Table)
    (hmedium : w.medium = session.medium) (hruns : w.methodKind.runsOver session.medium = true)
    (hfits : w.method.Fits w.methodKind) (htls : w.method.tunnelsTls = false)
    (h : w.method.secret.Sound) (hmedium' : session'.medium = session.medium) :
    let p' := (w.write fs session p waivers).1
    (Enterprise.ofProfile w.dynamicWep p' session' waivers').loadSecrets p' =
      w.reopened fs (waivers'.row session'.uuid) := by
  intro p'
  have hmethod : (w.methodKind.make (some (w.written fs session p waivers)) session'
      waivers').loadSecrets (w.written fs session p waivers) =
      w.method.reopened fs (waivers'.row session'.uuid) :=
    AuthMethod.make_write _ _ _ hfits htls h session'
  rw [method_loadSecrets_write hruns hfits hmedium', hmethod, ← hmedium]
  rfl

/-- A profile that 802.1x was written into is read as 802.1x, whatever it was before. -/
theorem ofKind?_ofProfile_write (fs : FileSystem) (session' : Session)
    (waivers waivers' : Waiver.Table) (hmedium : w.medium = session.medium)
    (hp : p.connection.medium = session.medium) :
    let p' := (w.write fs session p waivers).1
    ∃ dynamicWep, ofKind? (SecurityKind.ofProfile p') p' session' waivers' =
      some (enterprise (.ofProfile dynamicWep p' session' waivers')) := by
  intro p'
  have hconnection : p'.connection.medium = session.medium :=
    (congrArg (·.medium) (connection_write (s := enterprise w))).trans hp
  unfold SecurityKind.ofProfile
  rw [hconnection]
  cases hm : session.medium with
  | wired =>
      have hauthentication : p'.authentication = some _ := authentication_write
      rw [hauthentication]
      exact ⟨true, rfl⟩
  | wireless =>
      have hsecurity : p'.wirelessSecurity = some (.ofKeyMgmt w.keyMgmt) := by
        show (w.write fs session p waivers).1.wirelessSecurity = _
        rw [write_eq, secured, hmedium, hm]
        rfl
      refine ⟨w.dynamicWep, ?_⟩
      rw [hsecurity]
      unfold keyMgmt
      cases w.dynamicWep <;> rfl

/-- What is kept of the credentials when they are written again. -/
theorem base_write {isNew : Bool} (hnew : isNew = true → session.isNew = true) :
    base (w.write fs session p waivers).1 { session with isNew } =
      .renewed (some (w.written fs session p waivers)) := by
  obtain ⟨systemCaCerts, password, outer, inner, hbase, hsystem⟩ := base_eq_bare p session
  have hkept : (w.written fs session p waivers).systemCaCerts = systemCaCerts := by
    unfold written
    rw [AuthMethod.systemCaCerts_write, hbase]
    rfl
  unfold base
  rw [authentication_write]
  split
  next h => rw [← hsystem (hnew h), ← hkept]; rfl
  next => rfl

/-- Once it is read back, 802.1x writes what it wrote before. -/
theorem write_reopened {isNew : Bool} (hnew : isNew = true → session.isNew = true)
    (hfs : fs.SettlesPaths) (hkeep : Credential.Keeps fs fs') (hfits : w.method.Fits w.methodKind)
    (htls : w.method.tunnelsTls = false) (h : w.validate fs = .ok report) :
    let p' := (w.write fs session p waivers).1
    ((w.reopened fs row).write fs' { session with isNew } p' waivers').1 = p' := by
  intro p'
  obtain ⟨systemCaCerts, password, outer, inner, hbase, -⟩ := base_eq_bare p session
  -- The session only chooses the defaults of a new setting, so it need not be new any more.
  have hwritten : ((w.method.reopened fs row).write fs' { session with isNew }
      (base p' { session with isNew }, waivers')).1 = w.written fs session p waivers := by
    rw [base_write hnew]
    unfold written
    rw [hbase]
    exact AuthMethod.write_reopened hfs hkeep hfits htls h _ _ _ _ waivers waivers'
  have hp' : p' = w.secured p (w.written fs session p waivers) := write_eq
  rw [write_eq, show (w.reopened fs row).written fs' _ p' waivers' = _ from hwritten, hp']
  exact secured_secured _

end Enterprise

/-! ## Any security -/

/-- The security as it is read back. -/
def reopened (fs : FileSystem) (row : Waiver.Row) : Security → Security
  | wep w => wep w.reopened
  | personal w => personal w.reopened
  | enterprise w => enterprise (w.reopened fs row)
  | leap w => leap ⟨w.login.reopened⟩

variable {s : Security} {kind : SecurityKind} {adhoc : Bool} {waivers waivers' : Waiver.Table}

/-- The profile stands for the menu entry of the security that was written into it. -/
theorem ofProfile_write (h : s.WellFormed kind session.medium adhoc)
    (hmenu : kind ∈ SecurityKind.menu session.medium)
    (hmedium : p.connection.medium = session.medium) :
    SecurityKind.ofProfile (s.write fs session p waivers).1 = kind := by
  obtain ⟨rfl, hfits, -⟩ := h
  unfold SecurityKind.ofProfile
  rw [connection_write, hmedium]
  cases hm : session.medium with
  | wired =>
      -- The only security in the menu of a wired connection is dynamic WEP, that is, bare 802.1x.
      rw [hm] at hmenu
      cases s with
      | enterprise w =>
          simp only [Security.write, Enterprise.authentication_write, Option.isSome_some, if_true]
          cases hdynamic : w.dynamicWep with
          | true => simp [Security.kind, hdynamic]
          | false => simp [Security.kind, hdynamic, SecurityKind.menu] at hmenu
      | personal w => cases hsae : w.sae <;> simp [Security.kind, hsae, SecurityKind.menu] at hmenu
      | _ => simp [Security.kind, SecurityKind.menu] at hmenu
  | wireless =>
      cases s with
      | wep w =>
          simp only [Security.write, Wep.write_eq, wirelessSecurity_securedBy]
          rfl
      | personal w =>
          obtain ⟨sae, psk⟩ := w
          simp only [Security.write, Personal.write_eq, wirelessSecurity_securedBy]
          unfold Personal.setting Personal.management
          cases sae <;> cases p.isAdhoc <;> rfl
      | leap w =>
          simp only [Security.write, WirelessLeap.write_eq, wirelessSecurity_securedBy]
          rfl
      | enterprise w =>
          simp only [Security.write, Enterprise.write_eq, Enterprise.secured, hfits.1, hm,
            wirelessSecurity_secureWith]
          obtain ⟨dynamicWep, medium, methodKind, method⟩ := w
          cases dynamicWep <;> rfl

/-- The menu entry of a security makes it again out of the profile it was written into. -/
theorem ofKind?_write (h : s.WellFormed kind session.medium p.isAdhoc)
    (htls : s.tunnelsTls = false) (hmedium : session'.medium = session.medium) :
    let p' := (s.write fs session p waivers).1
    (ofKind? kind p' session' waivers').map (·.loadSecrets p') =
      some (s.reopened fs (waivers'.row session'.uuid)) := by
  intro p'
  obtain ⟨rfl, hfits, hsound⟩ := h
  cases s with
  | wep w => exact congrArg (some ∘ wep) (Wep.loadSecrets_write hfits hsound session')
  | personal w =>
      have hagain := congrArg (some ∘ personal)
        (Personal.loadSecrets_write (p := p) hsound session')
      obtain ⟨sae, psk⟩ := w
      cases sae <;> exact hagain
  | leap w => exact congrArg (some ∘ leap) (WirelessLeap.loadSecrets_write hsound session')
  | enterprise w =>
      have hagain := congrArg (some ∘ enterprise)
        (Enterprise.loadSecrets_write fs p waivers waivers' hfits.1 hfits.2.1 hfits.2.2 htls
          hsound hmedium)
      obtain ⟨dynamicWep, medium, methodKind, method⟩ := w
      cases dynamicWep <;> exact hagain

/-- A fit security stays fit, with the same report, as long as the files do that pass. -/
theorem validate_keeps (hkeep : Credential.Keeps fs fs') (h : s.validate fs = .ok report) :
    s.validate fs' = .ok report := by
  cases s with
  | enterprise w => exact AuthMethod.validate_keeps hkeep h
  | _ => exact h

/-- A fit security is fit once it is read back. -/
theorem validate_reopened (row : Waiver.Row) (hfs : fs.SettlesPaths)
    (hkeep : Credential.Keeps fs fs') (h : s.validate fs = .ok report) :
    ∃ report', (s.reopened fs row).validate fs' = .ok report' := by
  cases s with
  | enterprise w => exact AuthMethod.validate_reopened row hfs hkeep h
  | _ => exact ⟨report, h⟩

/-- Once it is read back, a fit security writes what it wrote before. -/
theorem write_reopened {isNew : Bool} (hnew : isNew = true → session.isNew = true)
    (hfs : fs.SettlesPaths) (hkeep : Credential.Keeps fs fs')
    (hwell : s.WellFormed kind session.medium p.isAdhoc) (htls : s.tunnelsTls = false)
    (h : s.validate fs = .ok report) :
    let p' := (s.write fs session p waivers).1
    ((s.reopened fs row).write fs' { session with isNew } p' waivers').1 = p' := by
  cases s with
  | wep w => exact Wep.write_reopened
  | personal w => exact Personal.write_reopened
  | leap w => exact WirelessLeap.write_reopened
  | enterprise w => exact Enterprise.write_reopened hnew hfs hkeep hwell.fits.2.2 htls h

end Security

end ConnectionSecurity
