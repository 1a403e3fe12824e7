import ConnectionSecurity.Proofs.Method.Reopen

/-!
# What is read back is fit again

A file that passes is written by its canonical path and passes again by it, so a fit method is fit
once it was written and read back (`AuthMethod.validate_reopened`), and it then writes what was
written before (`AuthMethod.write_reopened`). The file system may have changed in between, as long
as it keeps the files that pass.
-/

namespace ConnectionSecurity

open Method Credential Profile

variable {fs fs' : FileSystem} {session session' : Session} {row : Waiver.Row}
  {report : Report}

/-! ## Choosers -/

namespace Method.CaChooser

variable {c : CaChooser} {found : Option Accepted}

theorem reference_of_check (h : c.check fs = .ok found) :
    c.reference fs = found.map .ofAccepted := by
  rw [reference, h]

/-- The check of a chooser that was read back finds what the check found before. -/
theorem check_reopened (hfs : fs.SettlesPaths) (hkeep : Keeps fs fs')
    (h : c.check fs = .ok found) : (c.reopened fs row).check fs' = .ok found := by
  rw [check, reopened, reference_of_check h]
  cases found with
  | none => exact check_eq_ok_none.2 ⟨rfl, rfl⟩
  | some file => exact check_path hfs hkeep h fun _ hcontrol => by cases hcontrol

theorem reference_reopened (hfs : fs.SettlesPaths) (hkeep : Keeps fs fs')
    (h : c.check fs = .ok found) :
    (c.reopened fs row).reference fs' = c.reference fs := by
  rw [reference_of_check (check_reopened hfs hkeep h), reference_of_check h]

/-- What it takes for a chooser to be fit. -/
theorem validate_eq_ok : c.validate fs = .ok report ↔ ∃ found, c.check fs = .ok found ∧
    report = if found.isSome || c.notRequired then [] else [.missingCaCertificate c.phase] := by
  simp only [validate, Except.bind_eq_ok]
  constructor
  · rintro ⟨found, hc, h⟩
    refine ⟨found, hc, ?_⟩
    cases found with
    | some file => exact (Except.pure_eq_ok.1 h).symm
    | none => exact (Except.pure_eq_ok.1 h).symm
  · rintro ⟨found, hc, rfl⟩
    refine ⟨found, hc, ?_⟩
    cases found <;> rfl

/-- A fit chooser stays fit, with the same report, as long as the files do that pass. -/
theorem validate_keeps (hkeep : Keeps fs fs') (h : c.validate fs = .ok report) :
    c.validate fs' = .ok report := by
  obtain ⟨found, hc, hreport⟩ := validate_eq_ok.1 h
  exact validate_eq_ok.2 ⟨found, check_keeps hkeep hc, hreport⟩

/-- A fit chooser is fit once it is read back. -/
theorem validate_reopened (row : Waiver.Row) (hfs : fs.SettlesPaths) (hkeep : Keeps fs fs')
    (h : c.validate fs = .ok report) :
    ∃ report', (c.reopened fs row).validate fs' = .ok report' := by
  obtain ⟨found, hc, -⟩ := validate_eq_ok.1 h
  exact ⟨_, validate_eq_ok.2 ⟨found, check_reopened hfs hkeep hc, rfl⟩⟩

end Method.CaChooser

/-! ## TLS -/

namespace Method.Tls

variable {m : Tls} {key : Accepted}

theorem validateKey_eq_ok : m.validateKey fs = .ok key ↔
    Credential.check fs m.privateKey .privateKey (some m.keyPassword) = .ok (some key) := by
  simp only [validateKey, Except.bind_eq_ok]
  constructor
  · rintro ⟨found, hc, h⟩
    cases found with
    | none => cases h
    | some file =>
        obtain rfl := Except.pure_eq_ok.1 h
        exact hc
  · intro hc
    exact ⟨some key, hc, rfl⟩

/-- What it takes for TLS to be fit. -/
theorem validate_eq_ok : m.validate fs = .ok report ↔
    m.identity.isEmpty = false ∧ ∃ caReport key, m.ca.validate fs = .ok caReport ∧
      Credential.check fs m.privateKey .privateKey (some m.keyPassword) = .ok (some key) ∧
      (key.format ≠ .pkcs12 →
        ∃ cert, Credential.check fs m.clientCert .clientCert none = .ok (some cert)) ∧
      report = caReport ++
        if key.isOpenKey .privateKey then [.unencryptedPrivateKey key.path] else [] := by
  have hcert : ∀ found, Credential.check fs m.clientCert .clientCert none = .ok found →
      ∃ cert, found = some cert := by
    intro found h
    cases found with
    | none => cases (check_eq_ok_none.1 h).2
    | some cert => exact ⟨cert, rfl⟩
  unfold validate
  cases hidentity : m.identity.isEmpty with
  | true => simp
  | false =>
      simp only [Except.bind_eq_ok, validateKey_eq_ok, Bool.false_eq_true, if_false]
      constructor
      · rintro ⟨caReport, hca, key, hkey, h⟩
        refine ⟨trivial, caReport, key, hca, hkey, ?_⟩
        by_cases hformat : key.format = .pkcs12
        · rw [if_neg (by simp [hformat])] at h
          exact ⟨fun hne => absurd hformat hne, (Except.pure_eq_ok.1 h).symm⟩
        · rw [if_pos (by simp [hformat])] at h
          obtain ⟨found, hfound, h⟩ := Except.bind_eq_ok.1 h
          obtain ⟨cert, rfl⟩ := hcert found hfound
          exact ⟨fun _ => ⟨cert, hfound⟩, (Except.pure_eq_ok.1 h).symm⟩
      · rintro ⟨-, caReport, key, hca, hkey, hclient, rfl⟩
        refine ⟨caReport, hca, key, hkey, ?_⟩
        by_cases hformat : key.format = .pkcs12
        · rw [if_neg (by simp [hformat])]
          rfl
        · obtain ⟨cert, hcert⟩ := hclient hformat
          rw [if_pos (by simp [hformat])]
          exact Except.bind_eq_ok.2 ⟨some cert, hcert, rfl⟩

/-- The references that fit TLS writes: a PKCS#12 key stands for its certificate too. -/
theorem references_of_fit
    (hkey : Credential.check fs m.privateKey .privateKey (some m.keyPassword) = .ok (some key))
    (hclient : key.format ≠ .pkcs12 →
      ∃ cert, Credential.check fs m.clientCert .clientCert none = .ok (some cert)) :
    m.keyReference fs = some (.ofAccepted key) ∧
      ((key.format = .pkcs12 ∧ m.clientReference fs = some (.ofAccepted key)) ∨
      key.format ≠ .pkcs12 ∧ ∃ cert,
        Credential.check fs m.clientCert .clientCert none = .ok (some cert) ∧
        m.clientReference fs = some (.ofAccepted cert)) := by
  have href : m.keyReference fs = some (.ofAccepted key) := by
    rw [keyReference, reference, check_without_password hkey]
    rfl
  refine ⟨href, ?_⟩
  by_cases hformat : key.format = .pkcs12
  · refine .inl ⟨hformat, ?_⟩
    obtain ⟨path, format, encrypted⟩ := key
    obtain rfl : format = .pkcs12 := hformat
    rw [clientReference, href]
    rfl
  · obtain ⟨cert, hcert⟩ := hclient hformat
    refine .inr ⟨hformat, cert, hcert, ?_⟩
    obtain ⟨path, format, encrypted⟩ := key
    have hreference : reference fs m.clientCert .clientCert = some (.ofAccepted cert) := by
      rw [reference, hcert]
      rfl
    rw [clientReference, href, ← hreference]
    cases format with
    | pkcs12 => exact absurd rfl hformat
    | _ => rfl

/-- The checks of TLS that was read back find what the checks found before. -/
theorem checks_reopened (row : Waiver.Row) (hfs : fs.SettlesPaths) (hkeep : Keeps fs fs')
    (hkey : Credential.check fs m.privateKey .privateKey (some m.keyPassword) = .ok (some key))
    (hclient : key.format ≠ .pkcs12 →
      ∃ cert, Credential.check fs m.clientCert .clientCert none = .ok (some cert)) :
    Credential.check fs' (m.reopened fs row).privateKey .privateKey
        (some (m.reopened fs row).keyPassword) = .ok (some key) ∧
      ∀ cert, key.format ≠ .pkcs12 →
        Credential.check fs m.clientCert .clientCert none = .ok (some cert) →
        Credential.check fs' (m.reopened fs row).clientCert .clientCert none = .ok (some cert) := by
  obtain ⟨href, hcases⟩ := references_of_fit hkey hclient
  obtain ⟨-, -, -, hsatisfied⟩ := check_eq_ok_some.1 hkey
  constructor
  · simp only [reopened, href]
    refine check_path hfs hkeep hkey fun control hcontrol => ?_
    obtain rfl := Option.some.inj hcontrol
    exact hsatisfied m.keyPassword rfl
  · intro cert hformat hcert
    obtain ⟨hpkcs12, -⟩ | ⟨-, cert', hcert', hreference⟩ := hcases
    · exact absurd hpkcs12 hformat
    · obtain rfl : cert' = cert := by
        rw [hcert] at hcert'
        exact (Option.some.inj (Except.ok.inj hcert')).symm
      simp only [reopened, hreference]
      exact check_path hfs hkeep hcert fun _ hcontrol => by cases hcontrol

/-- Fit TLS stays fit, with the same report, as long as the files do that pass. -/
theorem validate_keeps (hkeep : Keeps fs fs') (h : m.validate fs = .ok report) :
    m.validate fs' = .ok report := by
  obtain ⟨hidentity, caReport, key, hca, hkey, hclient, hreport⟩ := validate_eq_ok.1 h
  refine validate_eq_ok.2 ⟨hidentity, caReport, key, CaChooser.validate_keeps hkeep hca,
    check_keeps hkeep hkey, fun hformat => ?_, hreport⟩
  obtain ⟨cert, hcert⟩ := hclient hformat
  exact ⟨cert, check_keeps hkeep hcert⟩

/-- Fit TLS is fit once it is read back. -/
theorem validate_reopened (row : Waiver.Row) (hfs : fs.SettlesPaths) (hkeep : Keeps fs fs')
    (h : m.validate fs = .ok report) :
    ∃ report', (m.reopened fs row).validate fs' = .ok report' := by
  obtain ⟨hidentity, caReport, key, hca, hkey, hclient, -⟩ := validate_eq_ok.1 h
  obtain ⟨caReport', hca'⟩ := CaChooser.validate_reopened row hfs hkeep hca
  obtain ⟨hkey', hclient'⟩ := checks_reopened row hfs hkeep hkey hclient
  refine ⟨_, validate_eq_ok.2 ⟨hidentity, caReport', key, hca', hkey', fun hformat => ?_, rfl⟩⟩
  obtain ⟨cert, hcert⟩ := hclient hformat
  exact ⟨cert, hclient' cert hformat hcert⟩

/-- TLS that was read back refers to the same files. -/
theorem references_reopened (row : Waiver.Row) (hfs : fs.SettlesPaths) (hkeep : Keeps fs fs')
    (h : m.validate fs = .ok report) :
    (m.reopened fs row).keyReference fs' = m.keyReference fs ∧
      (m.reopened fs row).clientReference fs' = m.clientReference fs := by
  obtain ⟨-, -, key, -, hkey, hclient, -⟩ := validate_eq_ok.1 h
  obtain ⟨hkey', hclient'⟩ := checks_reopened row hfs hkeep hkey hclient
  have hfit : key.format ≠ .pkcs12 → ∃ cert, Credential.check fs' (m.reopened fs row).clientCert
      .clientCert none = .ok (some cert) := by
    intro hformat
    obtain ⟨cert, hcert⟩ := hclient hformat
    exact ⟨cert, hclient' cert hformat hcert⟩
  obtain ⟨href, hcases⟩ := references_of_fit hkey hclient
  obtain ⟨href', hcases'⟩ := references_of_fit hkey' hfit
  refine ⟨by rw [href, href'], ?_⟩
  obtain ⟨hformat, hreference⟩ | ⟨hformat, cert, hcert, hreference⟩ := hcases
  · obtain ⟨-, hreference'⟩ | ⟨hformat', -⟩ := hcases'
    · rw [hreference, hreference']
    · exact absurd hformat hformat'
  · obtain ⟨hformat', -⟩ | ⟨-, cert', hcert', hreference'⟩ := hcases'
    · exact absurd hformat' hformat
    · rw [hclient' cert hformat hcert] at hcert'
      rw [hreference, hreference', Option.some.inj (Except.ok.inj hcert')]

end Method.Tls

namespace AuthMethod

variable {m : AuthMethod} {k : MethodKind}

/-! ## Chains -/

/-- A fit method stays fit, with the same report, as long as the files do that pass. -/
theorem validate_keeps (hkeep : Keeps fs fs') (h : m.validate fs = .ok report) :
    m.validate fs' = .ok report := by
  induction m generalizing report with
  | password m => exact h
  | leap m => exact h
  | tls m => exact Tls.validate_keeps hkeep h
  | tunnel t inner ih =>
      obtain ⟨shellReport, ht, h⟩ := Except.bind_eq_ok.1 h
      obtain ⟨innerReport, hinner, h⟩ := Except.bind_eq_ok.1 h
      obtain ⟨_, hoptions, hca⟩ := Except.bind_eq_ok.1 ht
      refine Except.bind_eq_ok.2 ⟨shellReport, ?_, Except.bind_eq_ok.2 ⟨_, ih hinner, h⟩⟩
      exact Except.bind_eq_ok.2 ⟨_, hoptions, CaChooser.validate_keeps hkeep hca⟩

/-- A fit method is fit once it is read back. -/
theorem validate_reopened (row : Waiver.Row) (hfs : fs.SettlesPaths) (hkeep : Keeps fs fs')
    (h : m.validate fs = .ok report) :
    ∃ report', (m.reopened fs row).validate fs' = .ok report' := by
  induction m generalizing report with
  | password m => exact ⟨report, h⟩
  | leap m => exact ⟨report, h⟩
  | tls m => exact Tls.validate_reopened row hfs hkeep h
  | tunnel t inner ih =>
      obtain ⟨shellReport, ht, h⟩ := Except.bind_eq_ok.1 h
      obtain ⟨innerReport, hinner, -⟩ := Except.bind_eq_ok.1 h
      obtain ⟨_, hoptions, hca⟩ := Except.bind_eq_ok.1 ht
      obtain ⟨caReport', hca'⟩ := CaChooser.validate_reopened row hfs hkeep hca
      obtain ⟨innerReport', hinner'⟩ := ih hinner
      refine ⟨caReport' ++ innerReport', Except.bind_eq_ok.2 ⟨caReport', ?_, ?_⟩⟩
      · exact Except.bind_eq_ok.2 ⟨_, hoptions, hca'⟩
      · exact Except.bind_eq_ok.2 ⟨innerReport', hinner', rfl⟩

end AuthMethod

/-! ## Writing again

A setting is built on a bare one, which holds nothing but flags of secrets and what counts besides
the CA certificate. -/

namespace Method

variable (systemCaCerts : Bool) (password outer inner : Secret.Flags)
  (waivers waivers' : Waiver.Table)

/-- What TLS writes into a bare setting. -/
theorem Tls.write_bare (m : Tls) (hphase : m.phase = .outer) :
    (m.write fs session (.bare systemCaCerts password outer inner, waivers)).1 =
      { Authentication.bare systemCaCerts password outer inner with
        eap := [Tls.name]
        identity := some m.identity
        outer :=
          { caCert := m.ca.reference fs
            clientCert := m.clientReference fs
            privateKey := m.keyReference fs
            privateKeyPassword := m.keyPassword.writtenText
            privateKeyPasswordFlags := m.keyPassword.policy.applyTo outer } } := by
  have hca : m.ca.phase = .outer := hphase
  simp only [Tls.write, Tls.slot, CaChooser.write, hphase, hca]
  rfl

/-- What the shell of a tunnel writes into a bare setting besides its options. -/
def Shell.opening (t : Shell) (fs : FileSystem) (systemCaCerts : Bool)
    (password outer inner : Secret.Flags) : Authentication :=
  { Authentication.bare systemCaCerts password outer inner with
    eap := [t.kind.name]
    anonymousIdentity := if t.anonymousIdentity.isEmpty then none else some t.anonymousIdentity
    outer := { caCert := t.ca.reference fs, privateKeyPasswordFlags := outer } }

theorem Shell.write_bare (session : Session) (t : Shell) (hphase : t.ca.phase = .outer) :
    (t.write fs session (.bare systemCaCerts password outer inner, waivers)).1 =
      t.options.write (t.opening fs systemCaCerts password outer inner) := by
  simp only [Shell.write, CaChooser.write, hphase]
  rfl

/-- Once it is read back, fit TLS writes what it wrote before. -/
theorem Tls.write_reopened {m : Tls} (hfs : fs.SettlesPaths) (hkeep : Keeps fs fs')
    (hphase : m.phase = .outer) (h : m.validate fs = .ok report) :
    let written := (m.write fs session (.bare systemCaCerts password outer inner, waivers)).1
    ((m.reopened fs row).write fs' session' (.renewed (some written), waivers')).1 = written := by
  intro written
  obtain ⟨hkey, hclient⟩ := references_reopened row hfs hkeep h
  obtain ⟨-, _, _, hca, -⟩ := validate_eq_ok.1 h
  obtain ⟨_, hcheck, -⟩ := CaChooser.validate_eq_ok.1 hca
  have hcert : (m.reopened fs row).ca.reference fs' = m.ca.reference fs :=
    CaChooser.reference_reopened hfs hkeep hcheck
  have hwritten : written = _ := write_bare systemCaCerts password outer inner waivers m hphase
  rw [hwritten, Authentication.renewed_some]
  -- What is kept is bare again, with the flags of the key merged once.
  refine (write_bare _ _ _ _ waivers' (m.reopened fs row) hphase).trans ?_
  rw [hkey, hclient, hcert]
  simp only [Authentication.bare, Authentication.credentials, reopened,
    Secret.Control.policy_concealed, Secret.Control.writtenText_concealed,
    Secret.Policy.applyTo_applyTo]

/-! ### Tunnels -/

variable (t : Shell) (m : Password)

/-- What stays of a setting that a tunnel and a method inside wrote: the flags, merged. -/
theorem Shell.renewed_write : Authentication.renewed
      (some (m.write (t.options.write (t.opening fs systemCaCerts password outer inner)))) =
    .bare systemCaCerts (m.login.password.policy.applyTo password) outer inner := by
  unfold Password.write Slot.write TunnelOptions.write
  cases m.slot <;> cases t.options <;> rfl

/-- Merging the policy of the password twice is merging it once. -/
theorem Shell.write_merged :
    m.write (t.options.write (t.opening fs systemCaCerts
      (m.login.password.policy.applyTo password) outer inner)) =
    m.write (t.options.write (t.opening fs systemCaCerts password outer inner)) := by
  unfold Password.write Slot.write TunnelOptions.write Login.write
  cases m.slot <;> cases t.options <;> simp [opening, Authentication.bare]

/-- Once it is read back, a tunnel with a fit shell writes what it wrote before. -/
theorem Shell.write_reopened (hfs : fs.SettlesPaths) (hkeep : Keeps fs fs')
    (hphase : t.ca.phase = .outer) (h : t.validate fs = .ok report) :
    let tunnel := AuthMethod.tunnel t (.password m)
    let written := (tunnel.write fs session (.bare systemCaCerts password outer inner, waivers)).1
    ((tunnel.reopened fs row).write fs' session' (.renewed (some written), waivers')).1 =
      written := by
  intro tunnel written
  obtain ⟨_, -, hca⟩ := Except.bind_eq_ok.1 h
  obtain ⟨_, hcheck, -⟩ := CaChooser.validate_eq_ok.1 hca
  have hcert : (t.reopened fs row).ca.reference fs' = t.ca.reference fs :=
    CaChooser.reference_reopened hfs hkeep hcheck
  have hopening : (t.reopened fs row).opening fs' = t.opening fs := by
    unfold opening
    rw [hcert]
    rfl
  have hwritten : written = m.write
      (t.options.write (t.opening fs systemCaCerts password outer inner)) :=
    congrArg m.write (write_bare _ _ _ _ _ session t hphase)
  rw [hwritten, renewed_write]
  -- The second write starts from flags that the policy is in already.
  show Password.write { m with login := m.login.reopened } ((t.reopened fs row).write fs'
    session' (.bare _ _ outer inner, waivers')).1 = _
  rw [write_bare _ _ _ _ _ _ (t.reopened fs row) hphase, hopening]
  exact write_merged systemCaCerts password outer inner t m

end Method

namespace AuthMethod

variable {m : AuthMethod} {k : MethodKind}

/-- Writing does not touch whether the certificates of the system count. -/
theorem systemCaCerts_write (m : AuthMethod) (state : Authentication × Waiver.Table) :
    (m.write fs session state).1.systemCaCerts = state.1.systemCaCerts := by
  have hca : ∀ (c : CaChooser) state,
      (c.write fs session state).1.systemCaCerts = state.1.systemCaCerts := by
    intro c state
    unfold CaChooser.write
    cases c.phase <;> rfl
  have hslot : ∀ (slot : Slot) name (a : Authentication),
      (slot.write name a).systemCaCerts = a.systemCaCerts := by
    intro slot name a
    cases slot <;> rfl
  induction m generalizing state with
  | password m => exact hslot m.slot _ _
  | leap m => rfl
  | tls m =>
      refine (hca m.ca _).trans ?_
      unfold Tls.phase
      cases m.ca.phase <;> exact hslot m.slot _ _
  | tunnel t inner ih =>
      refine (ih _).trans ?_
      unfold Shell.write TunnelOptions.write
      cases t.options <;> exact hca t.ca _

/-- Once it is read back, a fit method writes what it wrote before. -/
theorem write_reopened (hfs : fs.SettlesPaths) (hkeep : Keeps fs fs') (hfits : m.Fits k)
    (htls : m.tunnelsTls = false) (h : m.validate fs = .ok report) (systemCaCerts : Bool)
    (password outer inner : Secret.Flags) (waivers waivers' : Waiver.Table) :
    let written := (m.write fs session (.bare systemCaCerts password outer inner, waivers)).1
    ((m.reopened fs row).write fs' session' (.renewed (some written), waivers')).1 = written := by
  intro written
  cases m with
  | password m =>
      obtain ⟨kind, slot, login⟩ := m
      obtain ⟨-, rfl⟩ : _ ∧ slot = .outer := hfits
      exact congrArg (fun flags => { written with passwordFlags := flags })
        (Secret.Policy.applyTo_applyTo login.password.policy password)
  | leap m =>
      exact congrArg (fun flags => { written with passwordFlags := flags })
        (Secret.Policy.applyTo_applyTo m.login.password.policy password)
  | tls m =>
      obtain ⟨-, hphase⟩ : _ ∧ m.phase = .outer := hfits
      exact Tls.write_reopened systemCaCerts password outer inner waivers waivers' hfs hkeep
        hphase h
  | tunnel t inside =>
      obtain ⟨-, hphase, -, hinside⟩ := hfits
      cases inside with
      | password m =>
          obtain ⟨_, ht, -⟩ := Except.bind_eq_ok.1 h
          exact Shell.write_reopened systemCaCerts password outer inner waivers waivers' t m hfs
            hkeep hphase ht
      | tls m => cases htls
      | leap m => exact hinside.elim
      | tunnel t inside => exact hinside.elim

end AuthMethod

end ConnectionSecurity
