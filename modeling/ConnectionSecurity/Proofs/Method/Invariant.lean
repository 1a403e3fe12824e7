import ConnectionSecurity.Method.Edit
import ConnectionSecurity.Proofs.Except
import ConnectionSecurity.Proofs.Secret.Control

/-!
# What every edit of a method keeps

A method that a menu made keeps its shape: it stays of the kind of its menu entry (`Fits`), a
tunnel keeps inside what its own menu entry stands for, and the slot that the name is written to
stays the one of that entry. The exception is TLS, which no menu offers to run inside a tunnel but
which may be put there; `tunnelsTls` says that it was.

The secret of the leaf stays sound, whatever becomes of the rest of the chain.
-/

namespace ConnectionSecurity

open Method

/-! ## Menu entries that make a method -/

/-- The menu entry of a tunnel. -/
def Method.TunnelKind.methodKind : TunnelKind → MethodKind
  | ttls => .ttls
  | peap => .peap
  | fast => .fast

/-- The menu entry of a password method that runs on its own. -/
def Method.PasswordKind.methodKind? : PasswordKind → Option MethodKind
  | md5 => some .md5
  | pwd => some .pwd
  | _ => none

/-- The slot of an entry suits the method behind it. -/
@[simp] theorem Method.TunnelKind.granted_slot (k : TunnelKind) (entry : InnerKind) :
    (k.slot entry).granted entry.method = k.slot entry := by
  cases k <;> cases entry <;> rfl

theorem Method.TunnelKind.slot_ne_outer (k : TunnelKind) (entry : InnerKind) :
    k.slot entry ≠ .outer := by
  cases k <;> cases entry <;> nofun

theorem Method.TunnelKind.offers_standard (k : TunnelKind) : k.offers k.standard = true := by
  cases k <;> rfl

/-- An entry that a name stands for is in the menu. -/
theorem Method.TunnelKind.offers_of_entry? {k : TunnelKind} {name : Option String} {asEap : Bool}
    {entry : InnerKind} (h : k.entry? name asEap = some entry) : k.offers entry = true := by
  have hguard : ∀ e, (if k.offers e = true then pure e else none) = some entry →
      k.offers entry = true := by
    intro e he
    split at he
    next hoffers => exact Option.some.inj he ▸ hoffers
    next => cases he
  unfold entry? at h
  cases name with
  | none => cases h
  | some name =>
      cases hmethod : PasswordKind.ofName? name with
      | none => simp [hmethod] at h
      | some method =>
          simp only [hmethod, Option.bind_eq_bind, Option.bind_some] at h
          split at h
          next => exact hguard _ h
          next =>
            obtain ⟨e, -, h⟩ := Option.bind_eq_some_iff.1 h
            exact hguard e h

/-- Whatever a setting names, what runs inside is in the menu. -/
theorem Method.TunnelKind.offers_innerOf (k : TunnelKind) (a : Option Profile.Authentication) :
    k.offers (k.innerOf a) = true := by
  unfold innerOf
  cases a with
  | none => exact k.offers_standard
  | some a =>
      -- The first of the two fields that names an entry counts; without any it is the standard one.
      cases hplain : k.entry? a.innerAuth false with
      | some entry => simpa [hplain] using offers_of_entry? hplain
      | none =>
          cases heap : k.entry? a.innerAuthEap true with
          | some entry => simpa [hplain, heap] using offers_of_entry? heap
          | none => simpa [hplain, heap] using k.offers_standard

namespace AuthMethod

variable {m inner : AuthMethod} {t t' : Shell} {k : MethodKind} {fs : FileSystem}
  {session : Session}

/-! ## The shape of a method -/

/-- What a tunnel may have inside: the method of its menu entry, or TLS. -/
def FitsInside (t : Shell) : AuthMethod → Prop
  | password m => m.kind = t.innerKind.method ∧ m.slot = t.kind.slot t.innerKind
  | tls m => m.phase = .inner
  | leap _ => False
  | tunnel .. => False

/-- The method is one that a menu entry stands for. -/
def Fits (k : MethodKind) : AuthMethod → Prop
  | password m => m.kind.methodKind? = some k ∧ m.slot = .outer
  | tls m => k = .tls ∧ m.phase = .outer
  | leap _ => k = .leap
  | tunnel t inner => k = t.kind.methodKind ∧ t.ca.phase = .outer ∧
      t.kind.offers t.innerKind = true ∧ inner.FitsInside t

/-- A TLS method was put into a tunnel. -/
def tunnelsTls : AuthMethod → Bool
  | tunnel _ (tls _) => true
  | _ => false

theorem FitsInside.congr (h : inner.FitsInside t) (hkind : t'.kind = t.kind)
    (hinner : t'.innerKind = t.innerKind) : inner.FitsInside t' := by
  cases inner with
  | password m => exact ⟨hinner ▸ h.1, by rw [hkind, hinner]; exact h.2⟩
  | tls m => exact h
  | leap m => exact h
  | tunnel t inner => exact h

theorem FitsInside.onSecret (h : inner.FitsInside t) (f : Secret.Control → Secret.Control) :
    (inner.onSecret f).FitsInside t := by
  cases inner <;> exact h

theorem FitsInside.setUsername (h : inner.FitsInside t) (name : String) :
    (inner.setUsername name).FitsInside t := by
  cases inner <;> exact h

theorem FitsInside.loadSecrets (h : inner.FitsInside t) (a : Profile.Authentication) :
    (inner.loadSecrets a).FitsInside t := by
  cases inner <;> exact h

theorem Fits.onSecret (h : m.Fits k) (f : Secret.Control → Secret.Control) :
    (m.onSecret f).Fits k := by
  cases m with
  | tunnel t inner => exact ⟨h.1, h.2.1, h.2.2.1, h.2.2.2.onSecret f⟩
  | _ => exact h

theorem Fits.setUsername (h : m.Fits k) (name : String) : (m.setUsername name).Fits k := by
  cases m with
  | tunnel t inner => exact ⟨h.1, h.2.1, h.2.2.1, h.2.2.2.setUsername name⟩
  | _ => exact h

/-- Reading the stored secrets keeps the shape. -/
theorem Fits.loadSecrets (h : m.Fits k) (a : Profile.Authentication) :
    (m.loadSecrets a).Fits k := by
  cases m with
  | tunnel t inner => exact ⟨h.1, h.2.1, h.2.2.1, h.2.2.2.loadSecrets a⟩
  | _ => exact h

theorem Fits.into (h : m.Fits k) (typed : Typed) : (typed.into m).Fits k :=
  (h.setUsername _).onSecret _

/-- A menu entry makes a method that it stands for. -/
theorem fits_make (k : MethodKind) (a : Option Profile.Authentication) (session : Session)
    (waivers : Waiver.Table) : (k.make a session waivers).Fits k := by
  have htunnel : ∀ tk : TunnelKind,
      (MethodKind.makeTunnel tk a session waivers).Fits tk.methodKind := by
    intro tk
    have hkind : (Shell.ofSetting tk a session waivers).kind = tk :=
      TunnelOptions.kind_ofSetting tk a
    refine ⟨by rw [hkind], rfl, ?_, rfl, ?_⟩
    · rw [hkind]
      exact tk.offers_innerOf a
    · rw [hkind]
      exact tk.granted_slot _
  cases k with
  | md5 => exact ⟨rfl, rfl⟩
  | pwd => exact ⟨rfl, rfl⟩
  | leap => rfl
  | tls =>
      refine ⟨rfl, ?_⟩
      cases a <;> rfl
  | fast => exact htunnel .fast
  | ttls => exact htunnel .ttls
  | peap => exact htunnel .peap

/-- Switching makes a method that the entry chosen stands for, if the medium has it. -/
theorem fits_switch {old new : AuthMethod} {waivers : Waiver.Table}
    (h : Method.switch old k session waivers = .ok new) :
    new.Fits k ∧ k.runsOver session.medium = true := by
  simp only [Method.switch, MethodKind.offer, Except.map_eq_ok] at h
  obtain ⟨made, hmade, rfl⟩ := h
  split at hmade
  next hruns =>
    obtain rfl := Except.ok.inj hmade
    exact ⟨(fits_make k none session waivers).into _, hruns⟩
  next => cases hmade

/-! ## Edits keep the shape -/

theorem selectInner_eq (t : Shell) (inner : AuthMethod) (entry : InnerKind) (session : Session) :
    t.selectInner inner entry session =
      if t.kind.offers entry then
        .ok ({ t with innerKind := entry }, (Typed.of inner).into
          (password (.ofSetting entry.method (t.kind.slot entry) none session)))
      else .error ⟨entry.label, t.kind.label⟩ := by
  unfold Shell.selectInner switchInner offerInner
  split <;> rfl

/-- A new method inside a tunnel is the one of the entry that was chosen. -/
theorem selectInner_eq_ok {entry : InnerKind} {inner' : AuthMethod}
    (h : t.selectInner inner entry session = .ok (t', inner')) :
    t.kind.offers entry = true ∧ t' = { t with innerKind := entry } ∧
      inner' = (Typed.of inner).into
        (password (.ofSetting entry.method (t.kind.slot entry) none session)) := by
  rw [selectInner_eq] at h
  split at h
  next hoffers =>
    cases h
    exact ⟨hoffers, rfl, rfl⟩
  next => cases h

theorem phase_chooseClientCert (m : Tls) (path : Option Path) :
    (m.chooseClientCert path).phase = m.phase := by
  unfold Tls.chooseClientCert
  split <;> rfl

theorem phase_choosePrivateKey (m : Tls) (path : Option Path) :
    (m.choosePrivateKey fs path).2.phase = m.phase := by
  unfold Tls.choosePrivateKey
  split <;> rfl

/-- What runs inside a tunnel stays so under the edits that are passed on to it. -/
theorem FitsInside.edit (h : inner.FitsInside t) (e : Method.Edit) :
    (inner.edit fs session e).2.FitsInside t := by
  cases inner with
  | password m => cases e <;> exact h
  | tls m =>
      cases e with
      | clientCert path => exact (phase_chooseClientCert m path).trans h
      | privateKey path => exact (phase_choosePrivateKey m path).trans h
      | _ => exact h
  | leap m => exact h.elim
  | tunnel t inner => exact h.elim

/-- An edit of its shell does not change what a tunnel is. -/
theorem Fits.onShell (h : m.Fits k) (f : Shell → Option Shell)
    (hf : ∀ t t', f t = some t' → t'.kind = t.kind ∧ t'.ca = t.ca ∧ t'.innerKind = t.innerKind) :
    (m.onShell f).2.Fits k := by
  cases m with
  | tunnel t inner =>
      cases ht : f t with
      | none => simpa only [AuthMethod.onShell, ht] using h
      | some t' =>
          obtain ⟨hkind, hca, hinner⟩ := hf t t' ht
          simp only [AuthMethod.onShell, ht]
          exact ⟨by rw [hkind]; exact h.1, by rw [hca]; exact h.2.1,
            by rw [hkind, hinner]; exact h.2.2.1, h.2.2.2.congr hkind hinner⟩
  | _ => exact h

/-- Options are replaced only by those of the same kind. -/
theorem Fits.onOptions (h : m.Fits k) (f : TunnelOptions → Option TunnelOptions)
    (hf : ∀ o o', f o = some o' → o'.kind = o.kind) :
    (m.onShell (·.onOptions f)).2.Fits k := by
  refine h.onShell _ fun t t' ht => ?_
  obtain ⟨o', ho, rfl⟩ := Option.map_eq_some_iff.1 ht
  exact ⟨hf _ _ ho, rfl, rfl⟩

theorem Fits.onCa (h : m.Fits k) (f : CaChooser → CaChooser) (hf : ∀ c, (f c).phase = c.phase) :
    (m.onCa f).2.Fits k := by
  cases m with
  | tls m => exact ⟨h.1, (hf m.ca).trans h.2⟩
  | tunnel t inner =>
      exact ⟨h.1, (hf t.ca).trans h.2.1, h.2.2.1, h.2.2.2.congr rfl rfl⟩
  | _ => exact h

/-- A method stays of the kind of its menu entry under every edit. -/
theorem Fits.edit (h : m.Fits k) (e : Method.Edit) : (m.edit fs session e).2.Fits k := by
  cases e with
  | username v => rw [AuthMethod.edit]; exact h.setUsername v
  | secret e => rw [AuthMethod.edit]; exact h.onSecret _
  | ca path => rw [AuthMethod.edit]; exact h.onCa _ fun _ => rfl
  | caNotRequired b => rw [AuthMethod.edit]; exact h.onCa _ fun _ => rfl
  | clientCert path =>
      cases m with
      | tls m => exact ⟨h.1, (phase_chooseClientCert m path).trans h.2⟩
      | _ => exact h
  | privateKey path =>
      cases m with
      | tls m => exact ⟨h.1, (phase_choosePrivateKey m path).trans h.2⟩
      | _ => exact h
  | selectInner entry =>
      cases m with
      | tunnel t inner =>
          cases hs : t.selectInner inner entry session with
          | error r => simpa only [AuthMethod.edit, hs] using h
          | ok made =>
              obtain ⟨t', inner'⟩ := made
              obtain ⟨hoffers, rfl, rfl⟩ := selectInner_eq_ok hs
              simp only [AuthMethod.edit, hs]
              exact ⟨h.1, h.2.1, hoffers, rfl, t.kind.granted_slot entry⟩
      | _ => exact h
  | anonymousIdentity v =>
      rw [AuthMethod.edit]
      refine h.onShell _ fun t t' ht => ?_
      cases ht
      exact ⟨rfl, rfl, rfl⟩
  | domainSuffix v =>
      rw [AuthMethod.edit]
      refine h.onOptions _ fun o o' ho => ?_
      cases o <;> cases ho
      rfl
  | peapVersion v =>
      rw [AuthMethod.edit]
      refine h.onOptions _ fun o o' ho => ?_
      cases o <;> cases ho
      rfl
  | pacFile path =>
      rw [AuthMethod.edit]
      refine h.onOptions _ fun o o' ho => ?_
      cases o <;> cases ho
      rfl
  | provisioning v =>
      rw [AuthMethod.edit]
      refine h.onOptions _ fun o o' ho => ?_
      cases o <;> cases ho
      rfl
  | innerTls policy =>
      cases m with
      | tunnel t inner => exact ⟨h.1, h.2.1, h.2.2.1, rfl⟩
      | _ => exact h
  | inner e =>
      cases m with
      | tunnel t inner => exact ⟨h.1, h.2.1, h.2.2.1, h.2.2.2.edit e⟩
      | _ => exact h

/-! ## The secret stays sound -/

theorem sound_into (typed : Typed) (h : m.secret.Sound) : (typed.into m).secret.Sound := by
  rw [Typed.into, secret_onSecret, secret_setUsername]
  exact (h.setText _).reveal _

theorem sound_login (a : Option Profile.Authentication) (policy : Secret.Policy) :
    (Login.ofSetting a policy).password.Sound := by
  cases a with
  | none => exact Secret.Control.sound_empty policy
  | some a => exact Secret.Control.sound_setPolicy _ _

/-- The secret of a method that a menu entry makes is sound. -/
theorem sound_make (k : MethodKind) (a : Option Profile.Authentication) (session : Session)
    (waivers : Waiver.Table) : (k.make a session waivers).secret.Sound := by
  cases k with
  | tls =>
      cases a with
      | none => exact Secret.Control.sound_empty _
      | some a => exact Secret.Control.sound_setPolicy _ _
  | _ => exact sound_login a _

/-- Switching makes a method with a sound secret. -/
theorem sound_switch {old new : AuthMethod} {waivers : Waiver.Table}
    (h : Method.switch old k session waivers = .ok new) : new.secret.Sound := by
  simp only [Method.switch, MethodKind.offer, Except.map_eq_ok] at h
  obtain ⟨made, hmade, rfl⟩ := h
  split at hmade
  next =>
    obtain rfl := Except.ok.inj hmade
    exact sound_into _ (sound_make k none session waivers)
  next => cases hmade

theorem sound_loadSecrets (m : AuthMethod) (a : Profile.Authentication) :
    (m.loadSecrets a).secret.Sound := by
  induction m with
  | tunnel t inner ih => exact ih
  | _ => exact Secret.Control.sound_load _ _ _

theorem secret_onShell (f : Shell → Option Shell) (m : AuthMethod) :
    (m.onShell f).2.secret = m.secret := by
  cases m with
  | tunnel t inner => cases ht : f t <;> simp [AuthMethod.onShell, ht, secret]
  | _ => rfl

theorem secret_onCa (f : CaChooser → CaChooser) (m : AuthMethod) :
    (m.onCa f).2.secret = m.secret := by
  cases m <;> rfl

/-- Every edit keeps the secret sound. -/
theorem sound_edit (h : m.secret.Sound) (e : Method.Edit) :
    (m.edit fs session e).2.secret.Sound := by
  -- On the edit, not the method: an edit that is passed on goes one tunnel deeper.
  induction e generalizing m with
  | username v =>
      rw [AuthMethod.edit, secret_setUsername]
      exact h
  | secret e =>
      rw [AuthMethod.edit, secret_onSecret]
      exact h.edit e
  | inner e ih =>
      cases m with
      | tunnel t inner => exact ih (m := inner) h
      | _ => exact h
  | selectInner entry =>
      cases m with
      | tunnel t inner =>
          cases hs : t.selectInner inner entry session with
          | error r => simpa only [AuthMethod.edit, hs] using h
          | ok made =>
              obtain ⟨t', inner'⟩ := made
              obtain ⟨-, -, rfl⟩ := selectInner_eq_ok hs
              simp only [AuthMethod.edit, hs]
              exact sound_into _ (sound_login none _)
      | _ => exact h
  | clientCert path =>
      cases m with
      | tls m =>
          simp only [AuthMethod.edit, Tls.chooseClientCert]
          split <;> exact h
      | _ => exact h
  | privateKey path =>
      cases m with
      | tls m =>
          simp only [AuthMethod.edit, Tls.choosePrivateKey]
          split <;> exact h
      | _ => exact h
  | innerTls policy =>
      cases m with
      | tunnel t inner => exact Secret.Control.sound_empty policy
      | _ => exact h
  | ca path | caNotRequired b =>
      rw [AuthMethod.edit, secret_onCa]
      exact h
  | _ =>
      rw [AuthMethod.edit, secret_onShell]
      exact h

end AuthMethod

end ConnectionSecurity
