import ConnectionSecurity.Proofs.Security.SecretFlags
import ConnectionSecurity.Proofs.Security.Switching

/-!
# The policy that a secret starts under

A security that is made starts under the usual policy of the session if the profile has no setting
for its secret (`Security.policy_ofKind?`). Two edits make the control of a secret anew, the choice
of another method and the choice of a method inside a tunnel (`Security.Remakes`), and both put it
under the usual policy (`Security.policy_of_remakes`). All other edits leave the secret and its
policy as they are, but for those that choose one (`Security.storage_edit`).
-/

namespace ConnectionSecurity

open Method Secret Profile

variable {fs : FileSystem} {session : Session} {waivers : Waiver.Table} {p : Profile}

/-! ## Edits that choose a policy -/

/-- The edit of a control says under which policy it is. -/
def Secret.Control.Edit.choosesPolicy : Control.Edit → Bool
  | .policy _ | .flags _ | .load .. => true
  | _ => false

theorem Secret.Control.policy_edit (c : Control) {e : Control.Edit}
    (he : e.choosesPolicy = false) : (c.edit e).policy = c.policy := by
  cases e with
  | text v => exact policy_setText c v
  | reveal b => rfl
  | _ => cases he

/-- The edit of a method says under which policy its secret is. -/
def Method.Edit.choosesPolicy : Method.Edit → Bool
  | .secret e => e.choosesPolicy
  | .innerTls _ => true
  | .inner e => e.choosesPolicy
  | _ => false

/-- The edit of a security says under which policy its secret is. -/
def Security.Edit.choosesPolicy : Security.Edit → Bool
  | .secret e => e.choosesPolicy
  | .method e => e.choosesPolicy
  | _ => false

/-! ## Methods -/

namespace AuthMethod

variable {m inner : AuthMethod} {t : Shell} {k : MethodKind} {e : Method.Edit}

/-- The secret of a method, and the policy that it is under. -/
def storage (m : AuthMethod) : Authentication.SecretField × Policy :=
  (m.secretField, m.secret.policy)

theorem storage_setUsername (name : String) (m : AuthMethod) :
    (m.setUsername name).storage = m.storage := by
  induction m with
  | tunnel t inner ih => exact ih
  | _ => rfl

theorem storage_onSecret {f : Control → Control} (hf : ∀ c, (f c).policy = c.policy)
    (m : AuthMethod) : (m.onSecret f).storage = m.storage := by
  induction m with
  | tunnel t inner ih => exact ih
  | password m => exact congrArg (Prod.mk _) (hf _)
  | tls m => exact congrArg (Prod.mk _) (hf _)
  | leap m => exact congrArg (Prod.mk _) (hf _)

theorem storage_onShell (f : Shell → Option Shell) (m : AuthMethod) :
    (m.onShell f).2.storage = m.storage := by
  cases m with
  | tunnel t inner =>
      simp only [AuthMethod.onShell]
      split <;> rfl
  | _ => rfl

theorem storage_onCa {f : CaChooser → CaChooser} (hf : ∀ c, (f c).phase = c.phase)
    (m : AuthMethod) : (m.onCa f).2.storage = m.storage := by
  cases m with
  | tls m =>
      show (Authentication.SecretField.keyPassword (f m.ca).phase, m.keyPassword.policy) = _
      rw [hf]
      rfl
  | _ => rfl

theorem storage_chooseClientCert (m : Tls) (path : Option Path) :
    (tls (m.chooseClientCert path)).storage = (tls m).storage := by
  unfold Tls.chooseClientCert
  split <;> rfl

theorem storage_choosePrivateKey (m : Tls) (path : Option Path) :
    (tls (m.choosePrivateKey fs path).2).storage = (tls m).storage := by
  unfold Tls.choosePrivateKey
  split <;> rfl

/-- An edit that chooses no policy leaves the secret of a method and its policy as they are, unless
it is about what runs inside a tunnel. -/
theorem storage_edit_of_outer (he : e.choosesPolicy = false)
    (houter : ∀ t inner, m = tunnel t inner →
      (∀ entry, e ≠ .selectInner entry) ∧ ∀ e', e ≠ .inner e') :
    (m.edit fs session e).2.storage = m.storage := by
  cases e with
  | username v =>
      rw [AuthMethod.edit]
      exact storage_setUsername v m
  | secret e =>
      rw [AuthMethod.edit]
      exact storage_onSecret (fun c => c.policy_edit he) m
  | ca path =>
      rw [AuthMethod.edit]
      exact storage_onCa (f := (·.choose path)) (fun _ => rfl) m
  | caNotRequired b =>
      rw [AuthMethod.edit]
      exact storage_onCa (f := (·.tick b)) (fun _ => rfl) m
  | clientCert path =>
      cases m with
      | tls m => exact storage_chooseClientCert m path
      | _ => rfl
  | privateKey path =>
      cases m with
      | tls m => exact storage_choosePrivateKey m path
      | _ => rfl
  | selectInner entry =>
      cases m with
      | tunnel t inner => exact absurd rfl ((houter t inner rfl).1 entry)
      | _ => rfl
  | innerTls policy => cases he
  | inner e =>
      cases m with
      | tunnel t inner => exact absurd rfl ((houter t inner rfl).2 e)
      | _ => rfl
  | _ =>
      rw [AuthMethod.edit]
      exact storage_onShell _ m

/-- An edit that chooses neither a policy nor what runs inside a tunnel leaves the secret of a
method and its policy as they are. -/
theorem storage_edit (h : m.Fits k) (he : e.choosesPolicy = false)
    (hselect : ∀ t inner entry, m = tunnel t inner → e = .selectInner entry →
      entry ∉ t.kind.menu) : (m.edit fs session e).2.storage = m.storage := by
  cases m with
  | tunnel t inner =>
      cases e with
      | selectInner entry =>
          have hnot : ¬t.kind.offers entry = true := fun hoffers =>
            hselect t inner entry rfl rfl (TunnelKind.mem_menu_iff.2 hoffers)
          simp only [AuthMethod.edit, selectInner_eq, if_neg hnot]
      | inner e =>
          -- No tunnel runs inside another one, so the edit goes no deeper than this.
          have hinside : ∀ t' inner', inner ≠ tunnel t' inner' := by
            rintro t' inner' rfl
            exact h.2.2.2
          show (inner.edit fs session e).2.storage = inner.storage
          exact storage_edit_of_outer he fun t' inner' heq => absurd heq (hinside t' inner')
      | _ =>
          refine storage_edit_of_outer he fun _ _ _ => ⟨fun _ heq => ?_, fun _ heq => ?_⟩
          · cases heq
          · cases heq
  | _ => exact storage_edit_of_outer he fun _ _ heq => by cases heq

end AuthMethod

/-! ## Securities -/

namespace Security

variable {s : Security} {kind : SecurityKind} {adhoc : Bool} {e : Edit}

/-- The secret of a security, and the policy that it is under. -/
def storage (s : Security) : SecretField × Policy := (s.secretField, s.secret.policy)

/-- The edit makes the control of the secret anew: it chooses another method, or one from the menu
of a tunnel. -/
inductive Remakes (session : Session) : Security → Edit → Prop
  | method (w : Enterprise) (k : MethodKind) (hmem : k ∈ MethodKind.menu session.medium)
      (hnew : k ≠ w.methodKind) : Remakes session (.enterprise w) (.selectMethod k)
  | inner (w : Enterprise) (t : Shell) (inside : AuthMethod) (entry : InnerKind)
      (hmethod : w.method = .tunnel t inside) (hmem : entry ∈ t.kind.menu) :
      Remakes session (.enterprise w) (.method (.selectInner entry))

/-- **A control that is made anew is under the usual policy.** -/
theorem policy_of_remakes (h : s.Remakes session e) :
    (s.edit fs session waivers e).2.secret.policy = session.defaultPolicy := by
  cases h with
  | method w k hmem hnew =>
      have hselect := w.selectMethod_eq k session waivers
      rw [if_neg hnew, if_pos (MethodKind.mem_menu_iff.1 hmem)] at hselect
      simp only [Security.edit, hselect]
      exact (AuthMethod.carries_into (AuthMethod.secret_make_none k session waivers)).policy
  | inner w t inside entry hmethod hmem =>
      have hselect := AuthMethod.selectInner_eq t inside entry session
      rw [if_pos (TunnelKind.mem_menu_iff.1 hmem)] at hselect
      simp only [Security.edit, hmethod, AuthMethod.edit, hselect]
      exact (AuthMethod.carries_into (AuthMethod.secret_ofSetting_none ..)).policy

/-- Without the setting for its secret, a security is made under the usual policy. -/
theorem policy_ofKind? (h : ofKind? kind p session waivers = some s)
    (hnone : p.secretFlags? s.secretField = none) : s.secret.policy = session.defaultPolicy := by
  have hpersonal : ∀ sae : Bool, p.wirelessSecurity = none →
      (personal (.ofProfile sae p session)).secret.policy = session.defaultPolicy := by
    intro sae hp
    simp only [Personal.ofProfile, hp]
    rfl
  have henterprise : ∀ dynamicWep : Bool, p.authentication = none →
      (enterprise (.ofProfile dynamicWep p session waivers)).secret.policy =
        session.defaultPolicy := by
    intro dynamicWep hp
    simp only [Enterprise.ofProfile, hp, secret, AuthMethod.secret_make_none]
    rfl
  cases kind with
  | none => cases h
  | wep type =>
      obtain rfl := Option.some.inj h
      have hp : p.wirelessSecurity = none := Option.map_eq_none_iff.1 hnone
      simp only [Wep.ofProfile, hp]
      rfl
  | wpaPsk =>
      obtain rfl := Option.some.inj h
      exact hpersonal false (Option.map_eq_none_iff.1 hnone)
  | sae =>
      obtain rfl := Option.some.inj h
      exact hpersonal true (Option.map_eq_none_iff.1 hnone)
  | wpaEnterprise =>
      obtain rfl := Option.some.inj h
      exact henterprise false (Option.map_eq_none_iff.1 hnone)
  | dynamicWep =>
      obtain rfl := Option.some.inj h
      exact henterprise true (Option.map_eq_none_iff.1 hnone)
  | leap =>
      obtain rfl := Option.some.inj h
      have hp : p.wirelessSecurity = none := Option.map_eq_none_iff.1 hnone
      simp only [WirelessLeap.ofProfile, hp]
      rfl

/-- **An edit that chooses no policy and makes no control anew** leaves the secret and its policy as
they are. -/
theorem storage_edit (h : s.WellFormed kind session.medium adhoc) (he : e.choosesPolicy = false)
    (hremakes : ¬s.Remakes session e) : (s.edit fs session waivers e).2.storage = s.storage := by
  cases s with
  | wep w =>
      cases e with
      | secret e => exact congrArg (Prod.mk _) (w.control.policy_edit he)
      | wepAuth auth =>
          simp only [Security.edit, Wep.chooseAuth]
          split <;> rfl
      | wepKey index =>
          simp only [Security.edit, Wep.selectKey]
          split
          next hselect =>
            split at hselect
            next =>
              obtain rfl := Except.ok.inj hselect
              exact congrArg (Prod.mk _) (Control.policy_setText _ _)
            next => cases hselect
          next => rfl
      | _ => rfl
  | personal w =>
      cases e with
      | secret e => exact congrArg (Prod.mk _) (w.psk.policy_edit he)
      | _ => rfl
  | leap w =>
      cases e with
      | secret e => exact congrArg (Prod.mk _) (w.login.password.policy_edit he)
      | _ => rfl
  | enterprise w =>
      cases e with
      | selectMethod k =>
          have hselect := w.selectMethod_eq k session waivers
          split at hselect
          next => simp only [Security.edit, hselect]
          next hnew =>
            split at hselect
            next hruns => exact absurd (.method w k (MethodKind.mem_menu_iff.2 hruns) hnew) hremakes
            next => simp only [Security.edit, hselect]
      | method e =>
          have hmethod : (w.method.edit fs session e).2.storage = w.method.storage := by
            refine AuthMethod.storage_edit h.fits.2.2 he ?_
            rintro t inside entry hmethod rfl hmem
            exact hremakes (.inner w t inside entry hmethod hmem)
          exact congrArg (fun storage => (SecretField.authentication storage.1, storage.2)) hmethod
      | _ => rfl

end Security

end ConnectionSecurity
