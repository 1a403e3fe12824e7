import ConnectionSecurity.Method.Menu
import ConnectionSecurity.Proofs.Method.Waiver
import ConnectionSecurity.Proofs.Secret.Merge

/-!
# The flags that a method writes

The credentials for 802.1x have three secrets, each with flags of its own. A chain of methods has
only one of them, that of its leaf (`AuthMethod.secretField`). Writing the chain merges the policy
of the leaf into the flags of this one and leaves the flags of the other two alone
(`AuthMethod.flags_write`); reading the secrets of the chain takes the policy from the same flags
(`AuthMethod.policy_loadSecrets`).
-/

namespace ConnectionSecurity

open Method Secret Profile

/-- A secret of the credentials for 802.1x. -/
inductive Profile.Authentication.SecretField where
  | password
  | keyPassword (phase : Phase)
deriving DecidableEq, Repr

/-- The flags beside a secret. -/
def Profile.Authentication.flags (a : Authentication) : Authentication.SecretField → Flags
  | .password => a.passwordFlags
  | .keyPassword phase => (a.credentials phase).privateKeyPasswordFlags

/-- Credentials have the same flags if they agree on the three fields. -/
theorem Profile.Authentication.flags_congr {a b : Authentication}
    (hpassword : a.passwordFlags = b.passwordFlags)
    (houter : a.outer.privateKeyPasswordFlags = b.outer.privateKeyPasswordFlags)
    (hinner : a.inner.privateKeyPasswordFlags = b.inner.privateKeyPasswordFlags) :
    a.flags = b.flags := by
  funext field
  cases field with
  | password => exact hpassword
  | keyPassword phase =>
      cases phase with
      | outer => exact houter
      | inner => exact hinner

section
variable (fs : FileSystem) (session : Session)

/-! ## What does not write flags -/

/-- The chooser of a CA certificate writes no flags. -/
theorem Method.CaChooser.flags_write (c : CaChooser) (state : Authentication × Waiver.Table) :
    (c.write fs session state).1.flags = state.1.flags := by
  unfold CaChooser.write
  cases c.phase <;> exact Authentication.flags_congr rfl rfl rfl

/-- Nor does the shell of a tunnel. -/
theorem Method.Shell.flags_write (t : Shell) (state : Authentication × Waiver.Table) :
    (t.write fs session state).1.flags = state.1.flags := by
  have hoptions : ∀ a, (t.options.write a).flags = a.flags := by
    intro a
    cases t.options <;> exact Authentication.flags_congr rfl rfl rfl
  refine (hoptions _).trans ((t.ca.flags_write fs session _).trans ?_)
  exact Authentication.flags_congr rfl rfl rfl

end

namespace AuthMethod

variable {fs : FileSystem} {session : Session}

/-! ## The secret of a chain -/

/-- The secret that the leaf of a chain asks for. -/
def secretField : AuthMethod → Authentication.SecretField
  | password _ => .password
  | tls m => .keyPassword m.phase
  | leap _ => .password
  | tunnel _ inner => inner.secretField

/-- A user name and a password write the flags of the password. -/
theorem flags_write_login (l : Login) (a : Authentication) (field : Authentication.SecretField) :
    (l.write a).flags field =
      if field = .password then l.password.policy.applyTo (a.flags field) else a.flags field := by
  cases field with
  | password => rfl
  | keyPassword phase => cases phase <;> rfl

theorem flags_write_slot (slot : Slot) (name : String) (a : Authentication) :
    (slot.write name a).flags = a.flags := by
  cases slot <;> exact Authentication.flags_congr rfl rfl rfl

/-- TLS writes the flags of the password of its key. -/
theorem flags_write_tls (m : Tls) (state : Authentication × Waiver.Table)
    (field : Authentication.SecretField) : (m.write fs session state).1.flags field =
      if field = .keyPassword m.phase then m.keyPassword.policy.applyTo (state.1.flags field)
      else state.1.flags field := by
  have hslot : ({ m.slot.write Tls.name state.1 with identity := some m.identity } :
      Authentication).flags = state.1.flags :=
    (Authentication.flags_congr rfl rfl rfl).trans (flags_write_slot m.slot Tls.name state.1)
  refine (congrFun (m.ca.flags_write fs session _) field).trans ?_
  rw [← hslot]
  cases field with
  | password => cases m.phase <;> rfl
  | keyPassword phase =>
      show (Authentication.credentials (Authentication.setCredentials _ _ _)
        phase).privateKeyPasswordFlags = _
      rw [Authentication.credentials_setCredentials]
      by_cases h : m.phase = phase
      · subst h
        rw [if_pos rfl, if_pos rfl]
        rfl
      · rw [if_neg h, if_neg fun heq => h (Authentication.SecretField.keyPassword.inj heq).symm]
        rfl

/-- **Writing a chain** merges the policy of its leaf into the flags of the leaf's secret, and keeps
the flags of the others. -/
theorem flags_write (m : AuthMethod) (state : Authentication × Waiver.Table)
    (field : Authentication.SecretField) : (m.write fs session state).1.flags field =
      if field = m.secretField then m.secret.policy.applyTo (state.1.flags field)
      else state.1.flags field := by
  induction m generalizing state with
  | password m =>
      refine (flags_write_login m.login _ field).trans ?_
      rw [flags_write_slot]
      rfl
  | leap m =>
      refine (flags_write_login m.login _ field).trans ?_
      rw [flags_write_slot]
      rfl
  | tls m => exact flags_write_tls m state field
  | tunnel t inner ih =>
      refine (ih _).trans ?_
      rw [t.flags_write]
      rfl

/-! ## Reading -/

/-- Reading the secrets takes the policy from the flags of the leaf's secret. -/
theorem policy_loadSecrets (m : AuthMethod) (a : Authentication) :
    (m.loadSecrets a).secret.policy = .ofFlags (a.flags m.secretField) := by
  induction m with
  | tunnel t inner ih => exact ih
  | _ => exact Control.policy_load ..

theorem secretField_loadSecrets (m : AuthMethod) (a : Authentication) :
    (m.loadSecrets a).secretField = m.secretField := by
  induction m with
  | tunnel t inner ih => exact ih
  | _ => rfl

end AuthMethod

end ConnectionSecurity
