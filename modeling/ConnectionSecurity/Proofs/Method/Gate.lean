import ConnectionSecurity.Proofs.Demand
import ConnectionSecurity.Proofs.Method.Fit

/-!
# What a method demands

The demands of a method stand in the order in which the user meets them: a user name before its
password; a CA certificate before the key, the key before its password, and the user certificate
last, unless the key brings it along; a tunnel before the method inside. Checking a method is judged
by them (`AuthMethod.judged_validate`). What a fit method is warned about can be read off it in the
same order (`AuthMethod.report_eq`).
-/

namespace ConnectionSecurity

open Method

variable {fs : FileSystem} {report : Report}

/-! ## Secrets and files -/

/-- A text has to be there, unless it is asked for every time. -/
def Secret.Control.Given (c : Secret.Control) : Prop := c.policy ≠ .notSaved → c.text ≠ ""

theorem Secret.Control.isSatisfied_iff (c : Secret.Control) : c.isSatisfied = true ↔ c.Given := by
  unfold Secret.Control.isSatisfied Given
  cases c.policy <;> simp [Policy.keepsText, Secret.Control.isEmpty]

namespace Credential

theorem eq_some_of_chosen? {path : Option Path} {q : Path} (h : chosen? path = some q) :
    path = some q := (Option.filter_eq_some_iff.1 h).1

/-- What is demanded of a choice: that the file passes. Without one only a CA certificate is not
missing. -/
def demands (fs : FileSystem) (path : Option Path) (purpose : Purpose) : List Demand :=
  match chosen? path with
  | some q => [.passes (checkFile fs q purpose)]
  | none => if purpose = .ca then [] else [.that False (.missingFile purpose.field)]

theorem judged_check (fs : FileSystem) (path : Option Path) (purpose : Purpose) :
    Judged (demands fs path purpose) (check fs path purpose none) := by
  unfold demands check
  cases chosen? path with
  | some q => exact (Judged.passes _).map
  | none =>
      simp only
      split
      next => exact .ok none
      next => exact .that (fun _ => rfl) False.elim

/-- The password of a key is asked for last. -/
theorem judged_check_key (fs : FileSystem) (path : Option Path) (control : Secret.Control) :
    Judged (demands fs path .privateKey ++
      [.that control.Given (.passwordRequired .privateKeyPassword)])
      (check fs path .privateKey (some control)) := by
  unfold demands check
  cases chosen? path with
  | some q =>
      refine (Judged.passes _).bind fun file _ => ?_
      simp only
      rw [← control.isSatisfied_iff]
      refine .that (fun hnot => ?_) fun hgiven => ?_
      · rw [if_neg hnot]
        rfl
      · rw [if_pos hgiven]
        exact .ok _
  | none => exact .that (fun _ => rfl) False.elim

end Credential

/-! ## Demands of a method -/

namespace Method

/-- A user name, then the password. -/
def Login.demands (l : Login) : List Demand :=
  [.that (l.username ≠ "") (.missingField .username),
    .that l.password.Given (.missingField .password)]

theorem Login.judged_validate (l : Login) : Judged l.demands l.validate := by
  unfold demands validate
  refine .that (fun hempty => ?_) fun hname => ?_
  · rw [if_pos (by simpa using hempty)]
  · rw [if_neg (by simpa using hname), ← l.password.isSatisfied_iff]
    refine .that (fun hnot => if_neg hnot) fun hgiven => ?_
    rw [if_pos hgiven]
    exact .ok []

theorem CaChooser.judged_validate (c : CaChooser) (fs : FileSystem) :
    Judged (Credential.demands fs c.path .ca) (c.validate fs) := by
  have h : Judged (Credential.demands fs c.path .ca ++ []) (c.validate fs) := by
    refine (Credential.judged_check fs c.path .ca).bind fun found _ => ?_
    cases found with
    | none => exact .ok _
    | some file => exact .ok _
  rwa [List.append_nil] at h

/-- The key brings its certificate along. -/
def Tls.bringsCert (m : Tls) (fs : FileSystem) : Bool :=
  match m.privateKey with
  | some q =>
    match Credential.checkFile fs q .privateKey with
    | .ok key => key.format == .pkcs12
    | .error _ => false
  | none => false

/-- The private key, then its password. -/
def Tls.keyDemands (m : Tls) (fs : FileSystem) : List Demand :=
  Credential.demands fs m.privateKey .privateKey ++
    [.that m.keyPassword.Given (.passwordRequired .privateKeyPassword)]

/-- The user certificate, unless the key brings it along. -/
def Tls.certDemands (m : Tls) (fs : FileSystem) : List Demand :=
  if m.bringsCert fs then [] else Credential.demands fs m.clientCert .clientCert

/-- The identity, then the CA certificate, the private key, and the user certificate. -/
def Tls.demands (m : Tls) (fs : FileSystem) : List Demand :=
  .that (m.identity ≠ "") (.missingField .identity) ::
    (Credential.demands fs m.ca.path .ca ++ (m.keyDemands fs ++ m.certDemands fs))

theorem Tls.judged_validateKey (m : Tls) (fs : FileSystem) :
    Judged (m.keyDemands fs) (m.validateKey fs) := by
  have h : Judged (m.keyDemands fs ++ []) (m.validateKey fs) := by
    refine (Credential.judged_check_key fs m.privateKey m.keyPassword).bind fun found hfound => ?_
    cases found with
    | none => cases (Credential.check_eq_ok_none.1 hfound).2
    | some key => exact .ok key
  rwa [List.append_nil] at h

theorem Tls.bringsCert_eq {m : Tls} {key : Credential.Accepted} (h : m.validateKey fs = .ok key) :
    m.bringsCert fs = (key.format == .pkcs12) := by
  obtain ⟨q, hq, hkey, -⟩ := Credential.check_eq_ok_some.1 (validateKey_eq_ok.1 h)
  rw [bringsCert, Credential.eq_some_of_chosen? hq]
  simp only [hkey]

theorem Tls.judged_validate (m : Tls) (fs : FileSystem) :
    Judged (m.demands fs) (m.validate fs) := by
  unfold demands validate
  refine .that (fun hempty => ?_) fun hidentity => ?_
  · rw [if_pos (by simpa using hempty)]
    rfl
  · rw [if_neg (by simpa using hidentity)]
    refine (m.ca.judged_validate fs).bind fun caReport _ => ?_
    refine (m.judged_validateKey fs).bind fun key hkey => ?_
    rw [certDemands, bringsCert_eq hkey]
    by_cases hformat : key.format = .pkcs12
    · rw [if_pos (by simp [hformat]), if_neg (by simp [hformat])]
      exact .ok _
    · rw [if_neg (by simp [hformat]), if_pos (by simp [hformat])]
      exact (Credential.judged_check fs m.clientCert .clientCert).map

/-- Without provisioning a FAST tunnel needs a PAC file. -/
def TunnelOptions.demands : TunnelOptions → List Demand
  | fast pacFile provisioning =>
    [.that (provisioning ≠ .disabled ∨ ∃ q, pacFile = some q ∧ q ≠ "") (.missingFile .pacFile)]
  | ttls _ => []
  | peap _ => []

theorem TunnelOptions.judged_validate (o : TunnelOptions) : Judged o.demands o.validate := by
  cases o with
  | ttls suffix => exact .ok ()
  | peap version => exact .ok ()
  | fast pacFile provisioning =>
      have hiff : (provisioning.isEnabled || (Credential.chosen? pacFile).isSome) = true ↔
          (provisioning ≠ .disabled ∨ ∃ q, pacFile = some q ∧ q ≠ "") := by
        have hpac : (Credential.chosen? pacFile).isSome = true ↔
            ∃ q, pacFile = some q ∧ q ≠ "" := by
          cases pacFile <;> simp [Credential.chosen?, Option.isSome_filter]
        rw [Bool.or_eq_true, hpac]
        cases provisioning <;> simp [Provisioning.isEnabled]
      simp only [demands, validate]
      rw [← hiff]
      refine .that (fun hnot => if_neg hnot) fun hmet => ?_
      rw [if_pos hmet]
      exact .ok ()

/-- The options, then the CA certificate. -/
def Shell.demands (t : Shell) (fs : FileSystem) : List Demand :=
  t.options.demands ++ Credential.demands fs t.ca.path .ca

theorem Shell.judged_validate (t : Shell) (fs : FileSystem) :
    Judged (t.demands fs) (t.validate fs) :=
  t.options.judged_validate.bind fun _ _ => t.ca.judged_validate fs

end Method

/-- What a method demands. A tunnel comes before the method inside. -/
def AuthMethod.demands (fs : FileSystem) : AuthMethod → List Demand
  | password m => m.login.demands
  | tls m => m.demands fs
  | leap m => m.login.demands
  | tunnel t inner => t.demands fs ++ inner.demands fs

/-- **A method is judged by its demands.** -/
theorem AuthMethod.judged_validate (m : AuthMethod) (fs : FileSystem) :
    Judged (m.demands fs) (m.validate fs) := by
  induction m with
  | password m => exact m.login.judged_validate
  | tls m => exact m.judged_validate fs
  | leap m => exact m.login.judged_validate
  | tunnel t inner ih => exact (t.judged_validate fs).bind fun report _ => ih.map

/-! ## Warnings of a fit method -/

namespace Method

/-- Without a choice there is a warning, unless the box is ticked. -/
def CaChooser.warnings (c : CaChooser) : Report :=
  match Credential.chosen? c.path with
  | some _ => []
  | none => if c.notRequired then [] else [.missingCaCertificate c.phase]

theorem CaChooser.report_eq {c : CaChooser} (h : c.validate fs = .ok report) :
    report = c.warnings := by
  obtain ⟨found, hfound, h⟩ := Except.bind_eq_ok.1 h
  unfold warnings
  cases found with
  | none =>
      have hnone := (Credential.check_eq_ok_none.1 hfound).1
      simp only [hnone]
      exact (Except.pure_eq_ok.1 h).symm
  | some file =>
      obtain ⟨q, hsome, -⟩ := Credential.check_eq_ok_some.1 hfound
      simp only [hsome]
      exact (Except.pure_eq_ok.1 h).symm

/-- There is a warning of a key that anybody can open. -/
def Tls.keyWarnings (m : Tls) (fs : FileSystem) : Report :=
  match m.privateKey with
  | some q =>
    match Credential.checkFile fs q .privateKey with
    | .ok key => if key.encrypted then [] else [.unencryptedPrivateKey key.path]
    | .error _ => []
  | none => []

theorem Tls.report_eq {m : Tls} (h : m.validate fs = .ok report) :
    report = m.ca.warnings ++ m.keyWarnings fs := by
  obtain ⟨-, caReport, key, hca, hkey, -, rfl⟩ := validate_eq_ok.1 h
  obtain ⟨q, hq, hfile, -⟩ := Credential.check_eq_ok_some.1 hkey
  rw [CaChooser.report_eq hca, keyWarnings, Credential.eq_some_of_chosen? hq]
  simp only [hfile]
  cases hencrypted : key.encrypted <;> simp [Credential.Accepted.isOpenKey, hencrypted]

end Method

namespace AuthMethod

/-- What a method warns of if it is fit, the outermost part first. -/
def warnings (fs : FileSystem) : AuthMethod → Report
  | password _ => []
  | tls m => m.ca.warnings ++ m.keyWarnings fs
  | leap _ => []
  | tunnel t inner => t.ca.warnings ++ inner.warnings fs

theorem report_eq_login {l : Login} (h : l.validate = .ok report) : report = [] := by
  unfold Login.validate at h
  split at h
  next => cases h
  next =>
    split at h
    next => exact (Except.ok.inj h).symm
    next => cases h

/-- **The warnings of a fit method**, in order. -/
theorem report_eq {m : AuthMethod} (h : m.validate fs = .ok report) : report = m.warnings fs := by
  induction m generalizing report with
  | password m => exact report_eq_login h
  | tls m => exact Tls.report_eq h
  | leap m => exact report_eq_login h
  | tunnel t inner ih =>
      obtain ⟨shellReport, ht, h⟩ := Except.bind_eq_ok.1 h
      obtain ⟨innerReport, hinner, h⟩ := Except.bind_eq_ok.1 h
      obtain ⟨_, -, hca⟩ := Except.bind_eq_ok.1 ht
      obtain rfl := Except.pure_eq_ok.1 h
      rw [CaChooser.report_eq hca, ih hinner, warnings]

end AuthMethod

end ConnectionSecurity
