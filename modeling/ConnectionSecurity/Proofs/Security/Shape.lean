import ConnectionSecurity.Proofs.Security.Invariant

/-!
# What the menus make of a security

The key of WEP that is shown is not in the stash, and a tunnel that TLS was not put into has the
method of its menu entry inside; both last under every edit that keeps to the menus.

An edit is refused exactly if a menu lacks the entry that it chooses (`edit_refused_iff`), and it
then leaves the security as it is (`edit_of_refused`).
-/

namespace ConnectionSecurity

open Method

variable {fs : FileSystem} {session : Session} {waivers : Waiver.Table} {p : Profile}

theorem MethodKind.mem_menu_iff {k : MethodKind} {medium : Medium} :
    k ∈ MethodKind.menu medium ↔ k.runsOver medium = true := by
  have hall : k ∈ MethodKind.all := by cases k <;> decide
  rw [MethodKind.menu, List.mem_filter, and_iff_right hall]

theorem Method.TunnelKind.mem_menu_iff {k : TunnelKind} {entry : InnerKind} :
    entry ∈ k.menu ↔ k.offers entry = true := List.contains_iff_mem.symm

namespace AuthMethod

variable {m inner : AuthMethod} {t : Shell} {k : MethodKind} {r : Refusal}

/-! ## Methods -/

/-- A method has the name of its menu entry. -/
theorem Fits.name_eq (h : m.Fits k) : m.name = k.name := by
  cases m with
  | password m =>
      obtain ⟨hkind, -⟩ := h
      show m.kind.name = k.name
      cases hm : m.kind <;> rw [hm] at hkind <;> cases hkind <;> rfl
  | tls m => rw [h.1]; rfl
  | leap m => rw [show k = .leap from h]; rfl
  | tunnel t inner =>
      rw [h.1]
      show t.kind.name = _
      cases t.kind <;> rfl

/-- The method of a menu entry runs on its own. -/
theorem Fits.phase_eq (h : m.Fits k) : m.phase = .outer := by
  cases m with
  | password m => exact if_pos h.2
  | tls m => exact h.2
  | leap m => rfl
  | tunnel t inner => rfl

/-- Unless TLS was put into it, a tunnel has the method of its menu entry inside. -/
theorem Fits.exists_password (h : (tunnel t inner).Fits k)
    (htls : (tunnel t inner).tunnelsTls = false) :
    t.innerKind ∈ t.kind.menu ∧
      ∃ login, inner = password ⟨t.innerKind.method, t.kind.slot t.innerKind, login⟩ := by
  obtain ⟨-, -, hoffers, hinner⟩ := h
  refine ⟨TunnelKind.mem_menu_iff.2 hoffers, ?_⟩
  cases inner with
  | password m =>
      obtain ⟨kind, slot, login⟩ := m
      obtain ⟨rfl, rfl⟩ : kind = t.innerKind.method ∧ slot = t.kind.slot t.innerKind := hinner
      exact ⟨login, rfl⟩
  | tls m => cases htls
  | leap m => exact hinner.elim
  | tunnel t inner => exact hinner.elim

theorem tunnelsTls_make (k : MethodKind) (a : Option Profile.Authentication) :
    (k.make a session waivers).tunnelsTls = false := by
  cases k <;> rfl

/-! ### TLS inside a tunnel -/

theorem tunnelsTls_into (typed : Typed) (h : m.tunnelsTls = false) :
    (typed.into m).tunnelsTls = false := by
  cases m with
  | tunnel t inner => cases inner <;> first | rfl | cases h
  | _ => rfl

theorem tunnelsTls_onShell (f : Shell → Option Shell) (m : AuthMethod) :
    (m.onShell f).2.tunnelsTls = m.tunnelsTls := by
  cases m with
  | tunnel t inner =>
      cases ht : f t <;> simp only [onShell, ht]
      cases inner <;> rfl
  | _ => rfl

theorem tunnelsTls_loadSecrets (a : Profile.Authentication) (m : AuthMethod) :
    (m.loadSecrets a).tunnelsTls = m.tunnelsTls := by
  cases m with
  | tunnel t inner => cases inner <;> rfl
  | _ => rfl

/-- Only the edit that is for it puts TLS into a tunnel. -/
theorem Fits.tunnelsTls_edit (hfits : m.Fits k) (h : m.tunnelsTls = false) {e : Method.Edit}
    (he : ∀ policy, e ≠ .innerTls policy) : (m.edit fs session e).2.tunnelsTls = false := by
  cases m with
  | password m => cases e <;> rfl
  | leap m => cases e <;> rfl
  | tls m => cases e <;> rfl
  | tunnel t inner =>
      -- What runs inside takes a password, and stays what it is but for a choice from the menu.
      obtain ⟨-, login, rfl⟩ := hfits.exists_password h
      cases e with
      | selectInner entry =>
          simp only [AuthMethod.edit, selectInner_eq]
          cases t.kind.offers entry <;> rfl
      | innerTls policy => exact absurd rfl (he policy)
      | inner e => cases e <;> rfl
      | anonymousIdentity v | domainSuffix v | peapVersion v | pacFile v | provisioning v =>
          rw [AuthMethod.edit, tunnelsTls_onShell]
          exact h
      | _ => rfl

/-! ### Refusals -/

/-- A password method has nothing to choose from. -/
theorem edit_password_ne_refused (m : Password) (e : Method.Edit) :
    ((password m).edit fs session e).1 ≠ .refused r := by
  intro hr
  cases e <;> cases hr

/-- Nor has TLS. -/
theorem edit_tls_ne_refused (m : Tls) (e : Method.Edit) :
    ((tls m).edit fs session e).1 ≠ .refused r := by
  intro hr
  cases e <;> cases hr

theorem onShell_ne_refused (f : Shell → Option Shell) (m : AuthMethod) :
    (m.onShell f).1 ≠ .refused r := by
  intro hr
  cases m with
  | tunnel t inner => cases ht : f t <;> rw [onShell, ht] at hr <;> cases hr
  | _ => cases hr

/-- All that a method can refuse is an entry that its menu lacks. -/
theorem exists_of_edit_eq_refused (h : m.Fits k) {e : Method.Edit}
    (hr : (m.edit fs session e).1 = .refused r) :
    (m.edit fs session e).2 = m ∧
      ∃ t inner entry, m = tunnel t inner ∧ e = .selectInner entry ∧ entry ∉ t.kind.menu := by
  cases m with
  | password m => exact absurd hr (edit_password_ne_refused m e)
  | tls m => exact absurd hr (edit_tls_ne_refused m e)
  | leap m => cases e <;> cases hr
  | tunnel t inner =>
      cases e with
      | selectInner entry =>
          simp only [AuthMethod.edit, selectInner_eq] at hr ⊢
          cases hoffers : t.kind.offers entry with
          | true => simp [hoffers] at hr
          | false =>
              have hnot : entry ∉ t.kind.menu := by simp [TunnelKind.mem_menu_iff, hoffers]
              exact ⟨by simp, t, inner, entry, rfl, rfl, hnot⟩
      | inner e =>
          -- Inside a tunnel there is no other tunnel, so no second menu.
          cases inner with
          | password m => exact absurd hr (edit_password_ne_refused m e)
          | tls m => exact absurd hr (edit_tls_ne_refused m e)
          | leap m => exact h.2.2.2.elim
          | tunnel t inner => exact h.2.2.2.elim
      | anonymousIdentity v | domainSuffix v | peapVersion v | pacFile v | provisioning v =>
          exact absurd hr (onShell_ne_refused _ _)
      | _ => cases hr

theorem edit_selectInner_eq_refused {entry : InnerKind} (h : entry ∉ t.kind.menu) :
    ((tunnel t inner).edit fs session (.selectInner entry)).1 =
      .refused ⟨entry.label, t.kind.label⟩ := by
  have hoffers : ¬t.kind.offers entry = true := fun hyes => h (TunnelKind.mem_menu_iff.2 hyes)
  simp only [AuthMethod.edit, selectInner_eq, if_neg hoffers]

end AuthMethod

namespace Security

variable {s : Security} {kind : SecurityKind} {adhoc : Bool}

theorem Enterprise.selectMethod_eq (w : Enterprise) (k : MethodKind) (session : Session)
    (waivers : Waiver.Table) : w.selectMethod k session waivers =
      if k = w.methodKind then .ok w
      else if k.runsOver session.medium then
        .ok { w with
          methodKind := k
          method := (Typed.of w.method).into (k.make none session waivers) }
      else .error (k.refusal session.medium) := by
  unfold selectMethod Method.switch MethodKind.offer
  split
  next => rfl
  next => split <;> rfl

/-! ## Securities -/

/-- The edit keeps to the menus: it does not put TLS into a tunnel. -/
def Edit.KeepsToMenus (e : Edit) : Prop := ∀ policy, e ≠ .method (.innerTls policy)

/-- The key that is shown is not in the stash as well. -/
def ShownOnce : Security → Prop
  | wep w => w.stash[w.index.val]? = some ""
  | _ => True

theorem shownOnce_ofKind? (h : ofKind? kind p session waivers = some s) : s.ShownOnce := by
  have hblank (type : Profile.WepKeyType) : (Wep.ofProfile type p session).stash =
      Vector.replicate Profile.wepKeyCount "" := by
    unfold Wep.ofProfile
    cases p.wirelessSecurity with
    | none => rfl
    | some setting =>
        simp only
        split <;> rfl
  cases kind with
  | none => cases h
  | wep type =>
      obtain rfl := Option.some.inj h
      show (Wep.ofProfile type p session).stash[(Wep.ofProfile type p session).index.val]? = some ""
      simp [hblank]
  | _ =>
      obtain rfl := Option.some.inj h
      trivial

theorem ShownOnce.loadSecrets (h : s.ShownOnce) (p : Profile) : (s.loadSecrets p).ShownOnce := by
  cases s with
  | wep w =>
      unfold Security.loadSecrets Wep.loadSecrets
      cases p.wirelessSecurity with
      | none => exact h
      | some setting => simp [ShownOnce]
  | _ => exact h

theorem ShownOnce.edit (h : s.ShownOnce) (e : Edit) :
    (s.edit fs session waivers e).2.ShownOnce := by
  cases s with
  | wep w =>
      cases e with
      | wepAuth auth =>
          simp only [Security.edit, Wep.chooseAuth]
          split <;> exact h
      | wepKey index =>
          simp only [Security.edit, Wep.selectKey]
          split
          next w' hselect =>
            split at hselect
            next =>
              obtain rfl := Except.ok.inj hselect
              simp [ShownOnce, Wep.showKey]
            next => cases hselect
          next => exact h
      | _ => exact h
  | enterprise w =>
      have hall : ∀ w' : Enterprise, (enterprise w').ShownOnce := fun _ => trivial
      cases e with
      | selectMethod k =>
          simp only [Security.edit]
          split <;> exact hall _
      | _ => exact hall _
  | _ => cases e <;> trivial

theorem tunnelsTls_ofKind? (h : ofKind? kind p session waivers = some s) :
    s.tunnelsTls = false := by
  cases kind with
  | none => cases h
  | wpaEnterprise | dynamicWep =>
      obtain rfl := Option.some.inj h
      exact AuthMethod.tunnelsTls_make _ _
  | _ =>
      obtain rfl := Option.some.inj h
      rfl

theorem tunnelsTls_loadSecrets (s : Security) (p : Profile) :
    (s.loadSecrets p).tunnelsTls = s.tunnelsTls := by
  cases s with
  | enterprise w =>
      unfold Security.loadSecrets Enterprise.loadSecrets
      cases p.authentication with
      | none => rfl
      | some a => exact AuthMethod.tunnelsTls_loadSecrets a w.method
  | _ => rfl

/-- An edit that keeps to the menus does not put TLS into a tunnel. -/
theorem WellFormed.tunnelsTls_edit (hwell : s.WellFormed kind session.medium adhoc)
    (h : s.tunnelsTls = false) {e : Edit} (he : e.KeepsToMenus) :
    (s.edit fs session waivers e).2.tunnelsTls = false := by
  cases s with
  | wep w =>
      cases e with
      | wepKey index =>
          simp only [Security.edit]
          split <;> rfl
      | _ => rfl
  | enterprise w =>
      cases e with
      | selectMethod k =>
          simp only [Security.edit, Enterprise.selectMethod_eq]
          split
          next w' hselect =>
            split at hselect
            next =>
              obtain rfl := Except.ok.inj hselect
              exact h
            next =>
              split at hselect
              next =>
                obtain rfl := Except.ok.inj hselect
                exact AuthMethod.tunnelsTls_into _ (AuthMethod.tunnelsTls_make k none)
              next => cases hselect
          next => exact h
      | method e =>
          exact hwell.fits.2.2.tunnelsTls_edit h fun policy heq => he policy (congrArg _ heq)
      | _ => exact h
  | _ => cases e <;> rfl

/-! ### Refusals -/

/-- The edit chooses an entry that the menu of the security lacks: a fifth key, a method that does
not run over the medium, or a method that the tunnel does not offer. -/
inductive Lacks : Security → Edit → Prop where
  | wepKey (w : Wep) (index : Nat) (h : Profile.wepKeyCount ≤ index) : Lacks (wep w) (.wepKey index)
  | method (w : Enterprise) (k : MethodKind) (h : k ∉ MethodKind.menu w.medium) :
      Lacks (enterprise w) (.selectMethod k)
  | inner (w : Enterprise) (t : Shell) (inner : AuthMethod) (entry : InnerKind)
      (hw : w.method = .tunnel t inner) (h : entry ∉ t.kind.menu) :
      Lacks (enterprise w) (.method (.selectInner entry))

/-- A refused edit chooses what a menu lacks, and leaves the security as it is. -/
theorem WellFormed.lacks_of_refused (hwell : s.WellFormed kind session.medium adhoc) {e : Edit}
    {r : Refusal} (hr : (s.edit fs session waivers e).1 = .refused r) :
    s.Lacks e ∧ (s.edit fs session waivers e).2 = s := by
  cases s with
  | wep w =>
      cases e with
      | wepKey index =>
          simp only [Security.edit, Wep.selectKey] at hr ⊢
          by_cases h : index < Profile.wepKeyCount
          · simp [h] at hr
          · simp only [h, dif_neg, not_false_eq_true]
            exact ⟨.wepKey w index (Nat.le_of_not_lt h), trivial⟩
      | _ => cases hr
  | enterprise w =>
      cases e with
      | selectMethod k =>
          simp only [Security.edit, Enterprise.selectMethod_eq] at hr ⊢
          by_cases hsame : k = w.methodKind
          · simp [hsame] at hr
          · cases hruns : k.runsOver session.medium with
            | true => simp [hsame, hruns] at hr
            | false =>
                have hnot : k ∉ MethodKind.menu w.medium := by
                  rw [MethodKind.mem_menu_iff, hwell.fits.1, hruns]
                  exact Bool.false_ne_true
                exact ⟨.method w k hnot, by simp [hsame]⟩
      | method e =>
          obtain ⟨hsame, t, inner, entry, hm, rfl, hnot⟩ :=
            AuthMethod.exists_of_edit_eq_refused hwell.fits.2.2 hr
          refine ⟨.inner w t inner entry hm hnot, ?_⟩
          simp only [Security.edit]
          rw [hsame]
      | _ => cases hr
  | _ => cases e <;> cases hr

/-- An edit is refused exactly if a menu lacks the entry that it chooses. -/
theorem WellFormed.refused_iff (hwell : s.WellFormed kind session.medium adhoc) (e : Edit) :
    (∃ r, (s.edit fs session waivers e).1 = .refused r) ↔ s.Lacks e := by
  refine ⟨fun ⟨r, hr⟩ => (hwell.lacks_of_refused hr).1, fun hlacks => ?_⟩
  cases hlacks with
  | wepKey w index h =>
      refine ⟨⟨"key " ++ toString (index + 1), "WEP key index"⟩, ?_⟩
      simp only [Security.edit, Wep.selectKey, dif_neg (Nat.not_lt_of_le h)]
  | method w k h =>
      obtain ⟨hmedium, hruns, -⟩ := hwell.fits
      rw [MethodKind.mem_menu_iff, hmedium] at h
      have hother : k ≠ w.methodKind := fun heq => h (heq ▸ hruns)
      refine ⟨k.refusal session.medium, ?_⟩
      simp only [Security.edit, Enterprise.selectMethod_eq, if_neg hother, if_neg h]
  | inner w t inner entry hw h =>
      refine ⟨⟨entry.label, t.kind.label⟩, ?_⟩
      simp only [Security.edit, hw]
      exact AuthMethod.edit_selectInner_eq_refused h

end Security

end ConnectionSecurity
