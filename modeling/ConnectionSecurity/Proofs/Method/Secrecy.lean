import ConnectionSecurity.Method.Edit
import ConnectionSecurity.Proofs.Except
import ConnectionSecurity.Proofs.Profile.Secrecy
import ConnectionSecurity.Proofs.Secret.Control

/-!
# The secret of a method does not get around

`blotted` is a method as it looks without the text of its secret. What is left of a method after
an edit depends on nothing but what is left of the method and of the edit before (`blotted_edit`):
a text moves only from control to control. Under the policy that keeps no text, neither the check
nor what is written depends on the text either (`validate_blotted`, `write_blotted`), and no
secret is written (`noSecrets_write`).
-/

namespace ConnectionSecurity

open Method Profile Secret.Control

variable {fs : FileSystem} {session : Session} {waivers : Waiver.Table}

/-- The edit without the text that it types or loads. -/
def Method.Edit.blotted : Edit → Edit
  | .secret e => .secret e.blotted
  | .inner e => .inner e.blotted
  | e => e

/-- TLS as it looks without the password of its key. -/
def Method.Tls.blotted (m : Tls) : Tls := { m with keyPassword := m.keyPassword.blotted }

namespace AuthMethod

/-- The method as it looks without the text of its secret. -/
def blotted (m : AuthMethod) : AuthMethod := m.onSecret Secret.Control.blotted

/-! ## Making and filling methods -/

theorem onSecret_onSecret (m : AuthMethod) (f g : Secret.Control → Secret.Control) :
    (m.onSecret f).onSecret g = m.onSecret (g ∘ f) := by
  induction m with
  | tunnel t inner ih => exact congrArg (tunnel t) ih
  | _ => rfl

theorem onSecret_setUsername (m : AuthMethod) (name : String)
    (f : Secret.Control → Secret.Control) :
    (m.setUsername name).onSecret f = (m.onSecret f).setUsername name := by
  induction m with
  | tunnel t inner ih => exact congrArg (tunnel t) ih
  | _ => rfl

/-- The secret of a method without its text is a control without its text. -/
theorem secret_blotted (m : AuthMethod) : m.blotted.secret = m.secret.blotted :=
  secret_onSecret _ m

theorem blotted_blotted (m : AuthMethod) : m.blotted.blotted = m.blotted :=
  m.onSecret_onSecret _ _

/-- What is left of a method does not depend on the text that is typed into it. -/
theorem blotted_onSecret (m : AuthMethod) {f g : Secret.Control → Secret.Control}
    (h : ∀ c : Secret.Control, (f c).blotted = (g c.blotted).blotted) :
    (m.onSecret f).blotted = (m.blotted.onSecret g).blotted := by
  rw [blotted, blotted, blotted, onSecret_onSecret, onSecret_onSecret, onSecret_onSecret]
  exact congrArg m.onSecret (funext h)

/-- Of what was typed into another method, only the text is lost with the text. -/
theorem blotted_into (typed : Typed) (m : AuthMethod) :
    (typed.into m).blotted = ({ typed with secret := "" }.into m).blotted := by
  rw [Typed.into, Typed.into, blotted, blotted, onSecret_onSecret, onSecret_onSecret]
  refine congrArg (onSecret · _) (funext fun c => ?_)
  show ((c.setText typed.secret).reveal typed.revealed).blotted =
    ((c.setText "").reveal typed.revealed).blotted
  unfold Secret.Control.setText
  split <;> rfl

theorem of_blotted (m : AuthMethod) :
    Typed.of m.blotted = { Typed.of m with secret := "" } := by
  rw [Typed.of, secret_blotted, blotted, username_onSecret]
  rfl

/-- A menu entry stands for a setting, and makes a method of it, without looking at the secrets. -/
theorem make_blotted (k : MethodKind) (a : Option Authentication) (session : Session)
    (waivers : Waiver.Table) :
    k.make (a.map (·.blotted)) session waivers = k.make a session waivers := by
  cases a <;> cases k <;> rfl

theorem ofSetting_blotted (a : Option Authentication) (medium : Medium) :
    MethodKind.ofSetting (a.map (·.blotted)) medium = MethodKind.ofSetting a medium := by
  cases a <;> rfl

/-- What is left of the secret that is read does not depend on the stored text. -/
theorem blotted_loadSecrets (m : AuthMethod) (a : Authentication) :
    (m.loadSecrets a).blotted = (m.blotted.loadSecrets a.blotted).blotted := by
  induction m with
  | tunnel t inner ih => exact congrArg (tunnel t) ih
  | password m =>
      exact congrArg (fun control => password { m with login.password := control })
        (m.login.password.blotted_load_eq _ _ _)
  | leap m =>
      exact congrArg (fun control => leap { m with login.password := control })
        (m.login.password.blotted_load_eq _ _ _)
  | tls m =>
      obtain ⟨identity, ⟨path, notRequired, phase⟩, clientCert, isOpen, key, keyPassword⟩ := m
      cases phase <;>
        exact congrArg (fun control => tls ⟨_, ⟨_, _, _⟩, _, _, _, control⟩)
          (keyPassword.blotted_load_eq _ _ _)

/-! ## Edits -/

theorem blotted_switchInner (tunnel : TunnelKind) (old : AuthMethod) (entry : InnerKind)
    (session : Session) :
    (switchInner tunnel old entry session).map blotted =
      (switchInner tunnel old.blotted entry session).map blotted := by
  unfold switchInner
  cases offerInner tunnel entry session with
  | error r => rfl
  | ok made =>
      refine congrArg Except.ok ((blotted_into _ made).trans ?_)
      rw [of_blotted]

theorem blotted_switch (old : AuthMethod) (k : MethodKind) (session : Session)
    (waivers : Waiver.Table) :
    (switch old k session waivers).map blotted =
      (switch old.blotted k session waivers).map blotted := by
  unfold switch
  cases k.offer none session waivers with
  | error r => rfl
  | ok made =>
      refine congrArg Except.ok ((blotted_into _ made).trans ?_)
      rw [of_blotted]

/-- An edit of the shell does not look at the secret. -/
theorem blotted_onShell (m : AuthMethod) (f : Shell → Option Shell) :
    (m.onShell f).2.blotted = (m.blotted.onShell f).2 := by
  cases m with
  | tunnel t inner =>
      show ((tunnel t inner).onShell f).2.blotted = ((tunnel t inner.blotted).onShell f).2
      cases ht : f t <;> simp only [onShell, ht] <;> rfl
  | _ => rfl

theorem blotted_onCa (m : AuthMethod) (f : CaChooser → CaChooser) :
    (m.onCa f).2.blotted = (m.blotted.onCa f).2 := by
  cases m <;> rfl

/-- **What an edit does to a method, the text of the secret apart, depends on nothing but the rest
of both.** -/
theorem blotted_edit (m : AuthMethod) (e : Method.Edit) :
    (m.edit fs session e).2.blotted = (m.blotted.edit fs session e.blotted).2.blotted := by
  induction e generalizing m with
  | username v =>
      show (m.edit fs session (.username v)).2.blotted =
        (m.blotted.edit fs session (.username v)).2.blotted
      rw [edit, edit, blotted, onSecret_setUsername]
      exact (congrArg _ (blotted_blotted m)).symm.trans (onSecret_setUsername _ _ _).symm
  | secret e =>
      rw [Method.Edit.blotted, edit, edit]
      exact m.blotted_onSecret fun c => c.blotted_edit e
  | inner e ih =>
      cases m with
      | tunnel t inner => exact congrArg (tunnel t) (ih inner)
      | _ => exact (blotted_blotted _).symm
  | selectInner entry =>
      cases m with
      | tunnel t inner =>
          have hswitch := blotted_switchInner t.kind inner entry session
          show ((tunnel t inner).edit fs session (.selectInner entry)).2.blotted =
            ((tunnel t inner.blotted).edit fs session (.selectInner entry)).2.blotted
          simp only [edit, Shell.selectInner]
          -- Both are refused, or both make methods that are the same without their texts.
          obtain ⟨r, hold, hnew⟩ | ⟨made, made', hold, hnew, hmade⟩ := Except.map_eq_map hswitch
          · rw [hold, hnew]
            exact (blotted_blotted (tunnel t inner)).symm
          · rw [hold, hnew]
            exact congrArg (tunnel _) hmade
      | _ => exact (blotted_blotted _).symm
  | innerTls policy =>
      cases m with
      | tunnel t inner => rfl
      | _ => exact (blotted_blotted _).symm
  | clientCert path =>
      cases m with
      | tls m =>
          obtain ⟨identity, ca, clientCert, isOpen, key, keyPassword⟩ := m
          cases isOpen <;> rfl
      | _ => exact (blotted_blotted _).symm
  | privateKey path =>
      cases m with
      | tls m =>
          show ((tls m).edit fs session (.privateKey path)).2.blotted =
            ((tls m.blotted).edit fs session (.privateKey path)).2.blotted
          simp only [edit, Tls.choosePrivateKey, Tls.blotted]
          split <;> rfl
      | _ => exact (blotted_blotted _).symm
  | ca path | caNotRequired b =>
      simp only [Method.Edit.blotted, edit]
      rw [← blotted_onCa, blotted_blotted]
  | _ =>
      simp only [Method.Edit.blotted, edit]
      rw [← blotted_onShell, blotted_blotted]

/-! ## Checking and writing without a text -/

theorem validate_login_blotted {l : Login} (h : l.password.policy.keepsText = false) :
    l.validate = { l with password := l.password.blotted }.validate := by
  unfold Login.validate
  rw [isSatisfied_of_not_kept h, isSatisfied_of_not_kept (c := l.password.blotted) h]

theorem write_login_blotted {l : Login} (h : l.password.policy.keepsText = false)
    (a : Authentication) : l.write a = { l with password := l.password.blotted }.write a := by
  unfold Login.write
  rw [writtenText_of_not_kept h, writtenText_of_not_kept (c := l.password.blotted) h]
  rfl

/-- Under a policy that keeps no text, the check does not depend on the text. -/
theorem validate_blotted {m : AuthMethod} (h : m.secret.policy.keepsText = false) :
    m.validate fs = m.blotted.validate fs := by
  induction m with
  | password m => exact validate_login_blotted h
  | leap m => exact validate_login_blotted h
  | tls m =>
      have hcheck : m.validateKey fs = m.blotted.validateKey fs := by
        unfold Tls.validateKey Credential.check Tls.blotted
        simp only [isSatisfied_of_not_kept (c := m.keyPassword) h,
          isSatisfied_of_not_kept (c := m.keyPassword.blotted) h]
      show m.validate fs = m.blotted.validate fs
      unfold Tls.validate
      rw [hcheck]
      rfl
  | tunnel t inner ih =>
      show (do let report ← t.validate fs; return report ++ (← inner.validate fs)) =
        (do let report ← t.validate fs; return report ++ (← inner.blotted.validate fs))
      rw [ih h]

/-- Under a policy that keeps no text, what is written does not depend on the text. -/
theorem write_blotted {m : AuthMethod} (h : m.secret.policy.keepsText = false)
    (state : Authentication × Waiver.Table) :
    m.write fs session state = m.blotted.write fs session state := by
  induction m generalizing state with
  | password m => exact congrArg (·, state.2) (write_login_blotted h _)
  | leap m => exact congrArg (·, state.2) (write_login_blotted h _)
  | tls m =>
      have hkey : ∀ c, m.writeKey fs c = m.blotted.writeKey fs c := by
        intro c
        simp only [Tls.writeKey, Tls.blotted, writtenText_of_not_kept (c := m.keyPassword) h,
          writtenText_of_not_kept (c := m.keyPassword.blotted) h]
        rfl
      show m.write fs session state = m.blotted.write fs session state
      unfold Tls.write
      simp only [hkey]
      rfl
  | tunnel t inner ih => exact ih h _

end AuthMethod

/-! ## No secret is written -/

namespace Profile.Authentication.NoSecrets

variable {a : Authentication} {state : Authentication × Waiver.Table}

theorem slot (h : a.NoSecrets) (slot : Slot) (name : String) : (slot.write name a).NoSecrets := by
  cases slot <;> exact ⟨h.password, h.privateKeyPassword⟩

theorem login (h : a.NoSecrets) {l : Login} (hl : l.password.policy.keepsText = false) :
    (l.write a).NoSecrets :=
  ⟨writtenText_of_not_kept hl, h.privateKeyPassword⟩

/-- A chooser writes over the certificate of its phase and nothing else. -/
theorem caChooser (h : state.1.NoSecrets) (c : CaChooser) :
    (c.write fs session state).1.NoSecrets :=
  h.setCredentials c.phase (h.privateKeyPassword c.phase)

theorem shell (h : state.1.NoSecrets) (t : Shell) : (t.write fs session state).1.NoSecrets := by
  have hslot := h.slot .outer t.kind.name
  have hopened : (t.ca.write fs session ({ Slot.outer.write t.kind.name state.1 with
      anonymousIdentity :=
        if t.anonymousIdentity.isEmpty then none else some t.anonymousIdentity },
      state.2)).1.NoSecrets := by
    refine caChooser ?_ t.ca
    exact ⟨hslot.password, hslot.privateKeyPassword⟩
  unfold Shell.write TunnelOptions.write
  cases t.options <;> exact ⟨hopened.password, hopened.privateKeyPassword⟩

end Profile.Authentication.NoSecrets

namespace AuthMethod

/-- Under a policy that keeps no text, no secret is written. -/
theorem noSecrets_write {m : AuthMethod} (h : m.secret.policy.keepsText = false)
    {state : Authentication × Waiver.Table} (hstate : state.1.NoSecrets) :
    (m.write fs session state).1.NoSecrets := by
  induction m generalizing state with
  | password m => exact (hstate.slot m.slot m.kind.name).login h
  | leap m => exact (hstate.slot .outer Leap.name).login h
  | tls m =>
      have hslot := hstate.slot m.slot Tls.name
      have hidentity : ({ m.slot.write Tls.name state.1 with identity := some m.identity } :
          Authentication).NoSecrets := ⟨hslot.password, hslot.privateKeyPassword⟩
      exact (hidentity.setCredentials m.phase (writtenText_of_not_kept h)).caChooser m.ca
  | tunnel t inner ih => exact ih h (hstate.shell t)

end AuthMethod

end ConnectionSecurity
