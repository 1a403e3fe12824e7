import ConnectionSecurity.Method.Menu
import ConnectionSecurity.Proofs.Method.Invariant
import ConnectionSecurity.Proofs.Method.Waiver

/-!
# Reading back a method that was written

`reopened` says what becomes of a method that is written and read back: the files are those that
were written, the boxes are ticked as the waivers say, the secret is hidden, and all else is as
before. The menu entry of the method makes exactly this out of what the method wrote
(`make_loadSecrets_write`), and the setting stands for that entry (`ofSetting_write`).

TLS inside a tunnel is the one method that is not read back: no menu entry stands for it.
-/

namespace ConnectionSecurity

open Method

variable {fs fs' : FileSystem} {session : Session}

/-! ## What is read back -/

namespace Method

/-- The chooser that is filled from what this one wrote and from a row of waivers. -/
def CaChooser.reopened (c : CaChooser) (fs : FileSystem) (row : Waiver.Row) : CaChooser where
  path := (c.reference fs).map (·.path)
  notRequired := row.get c.phase
  phase := c.phase

/-- The method that is filled from what this one wrote and from a row of waivers. -/
def Tls.reopened (m : Tls) (fs : FileSystem) (row : Waiver.Row) : Tls where
  identity := m.identity
  ca := m.ca.reopened fs row
  clientCert := (m.clientReference fs).map (·.path)
  clientCertOpen := match m.keyReference fs with
    | some key => key.format != .pkcs12
    | none => true
  privateKey := (m.keyReference fs).map (·.path)
  keyPassword := m.keyPassword.concealed

/-- The shell that is filled from what this one wrote and from a row of waivers. -/
def Shell.reopened (t : Shell) (fs : FileSystem) (row : Waiver.Row) : Shell :=
  { t with ca := t.ca.reopened fs row }

/-- The user name and the password, read back. -/
def Login.reopened (l : Login) : Login := { l with password := l.password.concealed }

end Method

/-- The method that is filled from what this one wrote and from a row of waivers. -/
def AuthMethod.reopened (fs : FileSystem) (row : Waiver.Row) : AuthMethod → AuthMethod
  | password m => password { m with login := m.login.reopened }
  | tls m => tls (m.reopened fs row)
  | leap m => leap { m with login := m.login.reopened }
  | tunnel t inner => tunnel (t.reopened fs row) (inner.reopened fs row)

/-! ## A user name and a password -/

namespace Method

variable {l : Login}

theorem Login.ofSetting_some (a : Profile.Authentication) (policy : Secret.Policy) :
    Login.ofSetting (some a) policy =
      ⟨a.identity.getD "", .empty (Secret.Policy.ofFlags a.passwordFlags)⟩ := by
  rw [Login.ofSetting, Login.empty, Secret.Control.applyFlags_empty]

/-- A login that is filled from what another one wrote has the same name and password. -/
theorem Login.ofSetting_write (h : l.password.Sound) (a : Profile.Authentication)
    (policy : Secret.Policy) :
    (Login.ofSetting (some (l.write a)) policy).loadSecrets (l.write a) = l.reopened := by
  rw [Login.ofSetting_some]
  exact congrArg (Login.mk l.username) (Secret.Control.load_writtenText h rfl rfl a.passwordFlags)

/-! ## What runs inside a tunnel -/

/-- The method inside a tunnel is found again in the slot that it was written to. -/
theorem TunnelKind.innerOf_write {k : TunnelKind} {entry : InnerKind}
    (h : k.offers entry = true) (l : Login) (a : Profile.Authentication) :
    k.innerOf (some (l.write ((k.slot entry).write entry.method.name a))) = entry := by
  cases k <;> cases entry <;> first | rfl | cases h

/-! ## TLS -/

namespace Tls

variable (m : Tls) (fs : FileSystem) (session : Session) (a : Profile.Authentication)
  (waivers : Waiver.Table)

/-- The certificate side that TLS writes. -/
theorem credentials_write : (m.write fs session (a, waivers)).1.credentials m.phase =
    { m.writeKey fs (a.credentials m.phase) with caCert := m.ca.reference fs } := by
  unfold Tls.write CaChooser.write Tls.slot Tls.phase
  cases m.ca.phase <;> rfl

theorem identity_write : (m.write fs session (a, waivers)).1.identity = some m.identity := by
  unfold Tls.write CaChooser.write Tls.phase
  cases m.ca.phase <;> rfl

theorem ofSetting_some (phase : Phase) (session : Session) :
    Tls.ofSetting phase (some a) session waivers =
      { identity := a.identity.getD ""
        ca := .ofSetting (some a) phase session waivers
        clientCert := (a.credentials phase).clientCert.map (·.path)
        clientCertOpen := match (a.credentials phase).privateKey with
          | some key => key.format != .pkcs12
          | none => true
        privateKey := (a.credentials phase).privateKey.map (·.path)
        keyPassword := .empty (.ofFlags (a.credentials phase).privateKeyPasswordFlags) } := by
  exact congrArg (Tls.mk _ _ _ _ _) (Secret.Control.applyFlags_empty session.defaultPolicy _)

/-- TLS that is filled from what another one wrote has the same settings. -/
theorem ofSetting_write (h : m.keyPassword.Sound) (session' : Session)
    (waivers' : Waiver.Table) :
    let written := (m.write fs session (a, waivers)).1
    (Tls.ofSetting m.phase (some written) session' waivers').loadSecrets written =
      m.reopened fs (waivers'.row session'.uuid) := by
  intro written
  have hc : written.credentials m.phase = _ := m.credentials_write fs session a waivers
  have hidentity : written.identity = some m.identity := m.identity_write fs session a waivers
  have hca : CaChooser.ofSetting (some written) m.phase session' waivers' =
      m.ca.reopened fs (waivers'.row session'.uuid) := by
    simp only [CaChooser.ofSetting, Option.bind_some, hc]
    rfl
  have hpassword := Secret.Control.load_writtenText h (d := .empty m.keyPassword.policy) rfl rfl
    (a.credentials m.phase).privateKeyPasswordFlags
  rw [ofSetting_some, hidentity, hca, hc]
  simp only [Tls.loadSecrets, Tls.phase, CaChooser.reopened] at hc ⊢
  simp only [hc, writeKey, Secret.Policy.ofFlags_applyTo]
  exact congrArg (Tls.mk _ _ _ _ _) hpassword

end Tls

/-! ## Tunnels -/

@[simp] theorem PeapVersion.ofValue_value (v : PeapVersion) : ofValue v.value = v := by
  cases v <;> rfl

@[simp] theorem Provisioning.ofValue_value (v : Provisioning) : ofValue (some v.value) = v := by
  cases v <;> rfl

/-- A text that is left out when it is empty is read back as it was. -/
theorem getD_of_isEmpty (text : String) :
    (if text.isEmpty then none else some text).getD "" = text := by
  split
  next h => exact (String.isEmpty_iff.1 h).symm
  next => rfl

/-- The options of a tunnel are read back as they were. -/
theorem TunnelOptions.ofSetting_write (o : TunnelOptions) (a : Profile.Authentication) :
    ofSetting o.kind (some (o.write a)) = o := by
  cases o with
  | ttls suffix => exact congrArg TunnelOptions.ttls (getD_of_isEmpty suffix)
  | peap version => exact congrArg TunnelOptions.peap version.ofValue_value
  | fast pacFile provisioning =>
      exact congrArg (TunnelOptions.fast pacFile) provisioning.ofValue_value

/-- The method inside a tunnel does not touch the options of the tunnel. -/
theorem TunnelOptions.ofSetting_write_password (k : TunnelKind) (m : Password)
    (a : Profile.Authentication) : ofSetting k (some (m.write a)) = ofSetting k (some a) := by
  unfold Password.write Slot.write
  cases m.slot <;> cases k <;> rfl

theorem Password.anonymousIdentity_write (m : Password) (a : Profile.Authentication) :
    (m.write a).anonymousIdentity = a.anonymousIdentity := by
  unfold Password.write Slot.write
  cases m.slot <;> rfl

theorem Shell.anonymousIdentity_write (t : Shell)
    (state : Profile.Authentication × Waiver.Table) :
    (t.write fs session state).1.anonymousIdentity =
      if t.anonymousIdentity.isEmpty then none else some t.anonymousIdentity := by
  unfold Shell.write CaChooser.write TunnelOptions.write
  cases t.options <;> cases t.ca.phase <;> rfl

end Method

namespace AuthMethod

variable {m : AuthMethod} {t : Shell} {k : MethodKind}
  (a : Profile.Authentication) (waivers waivers' : Waiver.Table)

/-- A tunnel that is filled from what another one wrote has the same settings. -/
theorem makeTunnel_write {inner : Password} (hphase : t.ca.phase = .outer)
    (hoffers : t.kind.offers t.innerKind = true) (hinner : (password inner).FitsInside t)
    (h : inner.login.password.Sound) (session' : Session) :
    let written := ((tunnel t (password inner)).write fs session (a, waivers)).1
    (MethodKind.makeTunnel t.kind (some written) session' waivers').loadSecrets written =
      (tunnel t (password inner)).reopened fs (waivers'.row session'.uuid) := by
  intro written
  obtain ⟨kind, slot, login⟩ := inner
  obtain ⟨rfl, rfl⟩ : kind = t.innerKind.method ∧ slot = t.kind.slot t.innerKind := hinner
  -- The method inside writes last, but to fields that the shell does not read back.
  have hentry : t.kind.innerOf (some written) = t.innerKind :=
    TunnelKind.innerOf_write hoffers login _
  have hoptions : TunnelOptions.ofSetting t.kind (some written) = t.options :=
    (TunnelOptions.ofSetting_write_password _ _ _).trans (TunnelOptions.ofSetting_write _ _)
  have hanonymous : written.anonymousIdentity.getD "" = t.anonymousIdentity := by
    show (Password.write ⟨_, _, login⟩ (t.write fs session (a, waivers)).1).anonymousIdentity.getD
      "" = _
    rw [Password.anonymousIdentity_write, Shell.anonymousIdentity_write]
    exact getD_of_isEmpty _
  have hca : CaChooser.ofSetting (some written) .outer session' waivers' =
      t.ca.reopened fs (waivers'.row session'.uuid) := by
    have hcert := caCert_write fs session a waivers .outer
      (tunnel t (password ⟨t.innerKind.method, t.kind.slot t.innerKind, login⟩))
    rw [chooser?_tunnel, if_pos hphase] at hcert
    simp only [CaChooser.ofSetting, CaChooser.reopened, Option.bind_some, hphase]
    exact congrArg (fun cert => CaChooser.mk (Option.map _ cert) _ _) hcert
  have hshell : Shell.ofSetting t.kind (some written) session' waivers' =
      t.reopened fs (waivers'.row session'.uuid) := by
    simp only [Shell.ofSetting, hoptions, hca, hentry]
    exact congrArg (fun identity => Shell.mk _ identity _ _) hanonymous
  have hlogin := Login.ofSetting_write h ((t.kind.slot t.innerKind).write t.innerKind.method.name
    (t.write fs session (a, waivers)).1) session'.defaultPolicy
  simp only [MethodKind.makeTunnel, hshell]
  show tunnel _ (password ⟨_, (t.kind.slot t.innerKind).granted t.innerKind.method, _⟩) = _
  rw [TunnelKind.granted_slot]
  exact congrArg (fun login => tunnel _ (password ⟨_, _, login⟩)) hlogin

/-! ## The menu entry -/

theorem make_methodKind (tk : TunnelKind) (a : Option Profile.Authentication) (session : Session)
    (waivers : Waiver.Table) :
    tk.methodKind.make a session waivers = MethodKind.makeTunnel tk a session waivers := by
  cases tk <;> rfl

/-- The menu entry of a method makes it again out of what the method wrote. -/
theorem make_write (hfits : m.Fits k) (htls : m.tunnelsTls = false) (h : m.secret.Sound)
    (session' : Session) :
    let written := (m.write fs session (a, waivers)).1
    (k.make (some written) session' waivers').loadSecrets written =
      m.reopened fs (waivers'.row session'.uuid) := by
  intro written
  cases m with
  | password m =>
      obtain ⟨kind, slot, login⟩ := m
      obtain ⟨hkind, rfl⟩ : kind.methodKind? = some k ∧ slot = .outer := hfits
      have hlogin := Login.ofSetting_write h (Slot.outer.write kind.name a) session'.defaultPolicy
      cases kind <;> cases hkind <;>
        exact congrArg (fun login => password ⟨_, .outer, login⟩) hlogin
  | tls m =>
      obtain ⟨rfl, hphase⟩ : k = .tls ∧ m.phase = .outer := hfits
      have hm := m.ofSetting_write fs session a waivers h session' waivers'
      rw [hphase] at hm
      exact congrArg tls hm
  | leap m =>
      obtain rfl : k = .leap := hfits
      have hlogin := Login.ofSetting_write h (Slot.outer.write Leap.name a) session'.defaultPolicy
      exact congrArg (fun login => leap ⟨login⟩) hlogin
  | tunnel t inner =>
      obtain ⟨rfl, hphase, hoffers, hinner⟩ := hfits
      rw [make_methodKind]
      cases inner with
      | password inner => exact makeTunnel_write a waivers waivers' hphase hoffers hinner h session'
      | tls m => cases htls
      | leap m => exact hinner.elim
      | tunnel t inner => exact hinner.elim

theorem ofName?_name (k : MethodKind) : MethodKind.ofName? k.name = some k := by
  cases k <;> rfl

theorem eap_write_ca (c : CaChooser) (state : Profile.Authentication × Waiver.Table) :
    (c.write fs session state).1.eap = state.1.eap := by
  unfold CaChooser.write
  cases c.phase <;> rfl

theorem eap_write_shell (t : Shell) (state : Profile.Authentication × Waiver.Table) :
    (t.write fs session state).1.eap = [t.kind.methodKind.name] := by
  unfold Shell.write CaChooser.write TunnelOptions.write Shell.kind
  cases t.options <;> cases t.ca.phase <;> rfl

/-- What runs inside a tunnel writes its name beside that of the outer method. -/
theorem eap_write_inside {inner : AuthMethod} (h : inner.FitsInside t)
    (state : Profile.Authentication × Waiver.Table) :
    (inner.write fs session state).1.eap = state.1.eap := by
  cases inner with
  | password inner =>
      have hslot : inner.slot ≠ .outer := by
        rw [h.2]
        exact t.kind.slot_ne_outer t.innerKind
      show (inner.write _).eap = _
      unfold Password.write Slot.write
      cases hs : inner.slot with
      | outer => exact absurd hs hslot
      | inner => rfl
      | innerEap => rfl
  | tls m =>
      refine (eap_write_ca m.ca _).trans ?_
      have hphase : m.phase = .inner := h
      simp only [hphase, Tls.slot]
      rfl
  | leap m => exact h.elim
  | tunnel t inner => exact h.elim

/-- A method writes the name of its menu entry as the only outer method. -/
theorem eap_write (hfits : m.Fits k) : (m.write fs session (a, waivers)).1.eap = [k.name] := by
  cases m with
  | password m =>
      obtain ⟨kind, slot, login⟩ := m
      obtain ⟨hkind, rfl⟩ : kind.methodKind? = some k ∧ slot = .outer := hfits
      cases kind <;> cases hkind <;> rfl
  | tls m =>
      obtain ⟨rfl, hphase⟩ : k = .tls ∧ m.phase = .outer := hfits
      refine (eap_write_ca m.ca _).trans ?_
      simp only [hphase, Tls.slot]
      rfl
  | leap m => exact congrArg (fun k : MethodKind => [k.name]) (Eq.symm hfits)
  | tunnel t inner =>
      obtain ⟨rfl, -, -, hinner⟩ := hfits
      exact (eap_write_inside hinner _).trans (eap_write_shell t (a, waivers))

/-- What a method wrote stands for its menu entry. -/
theorem ofSetting_write {medium : Medium} (hfits : m.Fits k) (hruns : k.runsOver medium = true) :
    MethodKind.ofSetting (some (m.write fs session (a, waivers)).1) medium = k := by
  have hname : (MethodKind.ofName? k.name).filter (·.runsOver medium) = some k := by
    rw [ofName?_name, Option.filter_some, if_pos hruns]
  simp only [MethodKind.ofSetting, Option.bind_some, eap_write a waivers hfits, List.head?_cons]
  rw [hname, Option.getD_some]

end AuthMethod

end ConnectionSecurity
