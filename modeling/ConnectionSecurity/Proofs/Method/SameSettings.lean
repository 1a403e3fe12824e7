import ConnectionSecurity.Proofs.Method.Fit

/-!
# The same settings

What a user would call the same settings of a method: everything that was entered or chosen, except
that a file may be named by its canonical path now, that the box beside a CA certificate has a table
of its own, and that nothing is revealed. A PKCS#12 key stands for its certificate, so the user
certificate counts only beside another key.
-/

namespace ConnectionSecurity

open Method Credential

variable {fs fs' : FileSystem} {row : Waiver.Row} {report : Report}

/-- The file that was chosen is chosen again by its canonical path. Without a choice there is none;
an empty path is no choice. -/
def Credential.FoundAgain (fs : FileSystem) (old new : Option Path) : Prop :=
  match chosen? old with
  | some q => ∃ canonical, fs.canonicalPath q = .ok canonical ∧ new = some canonical
  | none => new = none

/-- The same policy and the same text. -/
def Secret.Control.SameSecret (old new : Secret.Control) : Prop :=
  new.policy = old.policy ∧ new.text = old.text

/-- The same user name, policy and password. -/
def Method.Login.SameSettings (old new : Login) : Prop :=
  new.username = old.username ∧ old.password.SameSecret new.password

/-- The same identity, the same files, and the same password under the same policy. -/
structure Method.Tls.SameSettings (fs : FileSystem) (old new : Tls) : Prop where
  phase : new.phase = old.phase
  identity : new.identity = old.identity
  keyPassword : old.keyPassword.SameSecret new.keyPassword
  ca : FoundAgain fs old.ca.path new.ca.path
  privateKey : FoundAgain fs old.privateKey new.privateKey
  clientCert : (old.keyReference fs).map (·.format) ≠ some .pkcs12 →
    FoundAgain fs old.clientCert new.clientCert

/-- The same kind of tunnel with the same options, CA certificate and method inside. -/
structure Method.Shell.SameSettings (fs : FileSystem) (old new : Shell) : Prop where
  /-- Domain suffix, PEAP version, PAC file and provisioning are options of the three kinds. -/
  options : new.options = old.options
  anonymousIdentity : new.anonymousIdentity = old.anonymousIdentity
  ca : FoundAgain fs old.ca.path new.ca.path
  innerKind : new.innerKind = old.innerKind

/-- The same method with the same settings, all along the chain. -/
def AuthMethod.SameSettings (fs : FileSystem) : AuthMethod → AuthMethod → Prop
  | password old, password new =>
    new.kind = old.kind ∧ new.slot = old.slot ∧ old.login.SameSettings new.login
  | tls old, tls new => old.SameSettings fs new
  | leap old, leap new => old.login.SameSettings new.login
  | tunnel t inner, tunnel t' inner' => t.SameSettings fs t' ∧ inner.SameSettings fs inner'
  | _, _ => False

theorem AuthMethod.SameSettings.tunnelsTls {old new : AuthMethod} (h : old.SameSettings fs new) :
    new.tunnelsTls = old.tunnelsTls := by
  cases old with
  | tunnel t inner =>
      cases new with
      | tunnel t' inner' => cases inner <;> cases inner' <;> first | rfl | exact h.2.elim
      | _ => exact h.elim
  | _ =>
      cases new with
      | tunnel t' inner' => exact h.elim
      | _ => rfl

/-! ## What is read back is the same -/

/-- A check that passes finds the chosen file by its canonical path. -/
theorem Credential.foundAgain_of_check {path : Option Path} {purpose : Purpose}
    {password : Option Secret.Control} {found : Option Accepted}
    (h : check fs path purpose password = .ok found) :
    FoundAgain fs path ((found.map Profile.FileRef.ofAccepted).map (·.path)) := by
  unfold FoundAgain
  obtain ⟨hnone, -, rfl⟩ | ⟨q, file, hq, hfile, rfl, -⟩ := check_eq_ok.1 h
  · rw [hnone]
    rfl
  · rw [hq]
    exact ⟨file.path, canonicalPath_of_checkFile hfile, rfl⟩

theorem Method.CaChooser.foundAgain_reopened {c : CaChooser} (h : c.validate fs = .ok report) :
    FoundAgain fs c.path (c.reopened fs row).path := by
  obtain ⟨found, hcheck, -⟩ := CaChooser.validate_eq_ok.1 h
  rw [reopened, reference_of_check hcheck]
  exact foundAgain_of_check hcheck

theorem Method.Tls.sameSettings_reopened {m : Tls} (h : m.validate fs = .ok report) :
    m.SameSettings fs (m.reopened fs row) := by
  obtain ⟨-, caReport, key, hca, hkey, hclient, -⟩ := Tls.validate_eq_ok.1 h
  obtain ⟨href, hcases⟩ := references_of_fit hkey hclient
  refine ⟨rfl, rfl, ⟨rfl, rfl⟩, CaChooser.foundAgain_reopened hca, ?_, fun hformat => ?_⟩
  · rw [reopened, href]
    exact foundAgain_of_check hkey
  · obtain ⟨hpkcs12, -⟩ | ⟨-, cert, hcert, hreference⟩ := hcases
    · rw [href] at hformat
      exact absurd (congrArg some hpkcs12) hformat
    · rw [reopened, hreference]
      exact foundAgain_of_check hcert

/-- A fit method has the same settings once it is read back. -/
theorem AuthMethod.sameSettings_reopened {m : AuthMethod} (h : m.validate fs = .ok report) :
    m.SameSettings fs (m.reopened fs row) := by
  induction m generalizing report with
  | password m => exact ⟨rfl, rfl, rfl, rfl, rfl⟩
  | leap m => exact ⟨rfl, rfl, rfl⟩
  | tls m => exact Tls.sameSettings_reopened h
  | tunnel t inner ih =>
      obtain ⟨shellReport, ht, h⟩ := Except.bind_eq_ok.1 h
      obtain ⟨innerReport, hinner, -⟩ := Except.bind_eq_ok.1 h
      obtain ⟨_, -, hca⟩ := Except.bind_eq_ok.1 ht
      exact ⟨⟨rfl, rfl, CaChooser.foundAgain_reopened hca, rfl⟩, ih hinner⟩

end ConnectionSecurity
