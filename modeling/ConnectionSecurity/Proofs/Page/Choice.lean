import ConnectionSecurity.Proofs.Page.SecretFlags
import ConnectionSecurity.Proofs.Page.Shape
import ConnectionSecurity.Proofs.Security.Switching

/-!
# Choosing what is chosen already

A page has four menus. Three of them leave everything as it is if their current entry is chosen once
more: the types of security, the methods for 802.1x, and the WEP keys. The menu of a tunnel does
not: the method inside is made anew, under the usual policy of the session, and only what was typed
is taken along. So nothing changes exactly if the method inside is the one of the entry and is under
this policy already (`Page.choosing_again`).
-/

namespace ConnectionSecurity

open Method Secret

variable {fs : FileSystem} {session : Session} {waivers : Waiver.Table}

/-! ## Nothing to change -/

/-- Choosing the policy of a control once more changes nothing. -/
theorem Secret.Control.Sound.setPolicy_self {c : Control} (h : c.Sound) :
    c.setPolicy c.policy = c := by
  unfold Control.setPolicy
  split
  next => rfl
  next hkeeps =>
    obtain ⟨text, policy, revealed⟩ := c
    obtain ⟨rfl, rfl⟩ : text = "" ∧ revealed = false := h (Bool.eq_false_iff.2 hkeeps)
    rfl

theorem Secret.Control.setPolicy_eq_self_iff {c : Control} {policy : Policy} (h : c.Sound) :
    c.setPolicy policy = c ↔ c.policy = policy := by
  constructor
  · intro hsame
    rw [← hsame, policy_setPolicy]
  · rintro rfl
    exact h.setPolicy_self

namespace Security

/-- Showing the key that is shown changes nothing, as long as the stash does not hold it as well. -/
theorem Wep.selectKey_self {w : Wep} (h : (wep w).ShownOnce) :
    w.selectKey w.index = .ok w := by
  have hcontrol : w.control.setText w.control.text = w.control := by
    unfold Control.setText
    split <;> rfl
  have hstash : w.stash.set w.index "" = w.stash := by
    have hshown : w.stash[w.index.val]? = some "" := h
    refine Vector.ext fun i hi => ?_
    rw [Vector.getElem_set]
    split
    next heq =>
      subst heq
      rw [Vector.getElem?_eq_getElem hi] at hshown
      exact (Option.some.inj hshown).symm
    next => rfl
  rw [Wep.selectKey, dif_pos w.index.isLt, Wep.showKey]
  simp [hcontrol, hstash]

/-- The method that is chosen stays as it is. -/
theorem Enterprise.selectMethod_self (w : Enterprise) :
    w.selectMethod w.methodKind session waivers = .ok w := by
  rw [Enterprise.selectMethod_eq, if_pos rfl]

end Security

namespace AuthMethod

variable {t : Shell} {inner : AuthMethod} {k : MethodKind}

/-- The method inside a tunnel after the entry of its menu that is chosen was chosen once more. -/
def rechosen (session : Session) (t : Shell) (inner : AuthMethod) : AuthMethod :=
  password ⟨t.innerKind.method, t.kind.slot t.innerKind,
    ⟨inner.username, inner.secret.setPolicy session.defaultPolicy⟩⟩

/-- Choosing the entry inside a tunnel that is chosen already makes the method of the entry anew. -/
theorem edit_selectInner_self (h : (tunnel t inner).Fits k) :
    (tunnel t inner).edit fs session (.selectInner t.innerKind) =
      (.done, tunnel t (rechosen session t inner)) := by
  obtain ⟨-, -, hoffers, -⟩ := h
  simp only [AuthMethod.edit, selectInner_eq, if_pos hoffers, into_password]
  rfl

/-- It is the same method if it was the one of the entry and under the usual policy. -/
theorem rechosen_eq_iff (h : (tunnel t inner).Fits k) (hsound : inner.secret.Sound) :
    rechosen session t inner = inner ↔
      (tunnel t inner).tunnelsTls = false ∧ inner.secret.policy = session.defaultPolicy := by
  cases htls : (tunnel t inner).tunnelsTls with
  | true =>
      refine iff_of_false (fun hsame => ?_) (by simp)
      rw [← hsame] at htls
      cases htls
  | false =>
      obtain ⟨-, login, rfl⟩ := h.exists_password htls
      obtain ⟨username, control⟩ := login
      rw [and_iff_right rfl]
      refine Iff.trans ?_ (Control.setPolicy_eq_self_iff hsound)
      simp [rechosen, secret, AuthMethod.username]

end AuthMethod

namespace Page

variable {page : Page} {s s' : Security}

/-- An edit takes the security out for editing and puts the edited one in its place. -/
theorem edit_eq {e : Security.Edit} {outcome : Outcome} (hs : page.security = some s)
    (he : s.edit fs page.session page.store.table e = (outcome, s')) :
    page.edit fs e = (outcome, { page.touch with security := some s' }) := by
  unfold Page.edit Page.touch
  rw [if_pos (by rw [hs]; rfl), hs]
  simp only [he]

/-- An edit that changes nothing takes the security out for editing, and no more. -/
theorem edit_of_same {e : Security.Edit} (hs : page.security = some s)
    (he : s.edit fs page.session page.store.table e = (.done, s)) :
    page.edit fs e = (.done, page.touch) := by
  rw [edit_eq hs he, ← hs, ← page.same_touch.2.2]

/-- Taking the security out for editing makes no difference to a save. -/
theorem save_touch (page : Page) (fs : FileSystem) (p : Profile) :
    page.touch.save fs p = page.save fs p := by
  have hvalidate : page.touch.validate fs p = page.validate fs p := by
    obtain ⟨session, store, kind, security, state⟩ := page
    cases security <;> rfl
  rw [save, hvalidate, save]

/-! ## The menu of a tunnel -/

variable {w : Security.Enterprise} {t : Shell} {inner : AuthMethod}

/-- The page after the entry inside the tunnel that is chosen was chosen once more. -/
theorem Coherent.edit_selectInner_self (h : page.Coherent session)
    (hs : page.security = some (.enterprise w)) (hmethod : w.method = .tunnel t inner) :
    page.edit fs (.method (.selectInner t.innerKind)) = (.done, { page.touch with
      security := some (.enterprise
        { w with method := .tunnel t (AuthMethod.rechosen session t inner) }) }) := by
  obtain ⟨rfl, hwell⟩ := h
  obtain ⟨adhoc, hwell⟩ := hwell _ hs
  have hfits : (AuthMethod.tunnel t inner).Fits w.methodKind := hmethod ▸ hwell.fits.2.2
  refine edit_eq hs ?_
  simp only [Security.edit, hmethod]
  rw [AuthMethod.edit_selectInner_self hfits]

/-- Another method inside its tunnel is all that a page differs in. -/
theorem touch_eq_iff (hs : page.security = some (.enterprise w))
    (hmethod : w.method = .tunnel t inner) (made : AuthMethod) :
    { page.touch with security := some (.enterprise { w with method := .tunnel t made }) } =
      page.touch ↔ made = inner := by
  constructor
  · intro hsame
    have hsecurity := congrArg Page.security hsame
    rw [same_touch.2.2, hs] at hsecurity
    have hw := Security.enterprise.inj (Option.some.inj hsecurity)
    have hm := congrArg Security.Enterprise.method hw
    rw [hmethod] at hm
    exact (AuthMethod.tunnel.inj hm).2
  · rintro rfl
    rw [← hmethod, ← hs, ← page.same_touch.2.2]

/-- Nothing changes exactly if the method of the entry is inside, under the usual policy. -/
theorem Coherent.edit_selectInner_self_iff (h : page.Coherent session)
    (hs : page.security = some (.enterprise w)) (hmethod : w.method = .tunnel t inner) :
    (page.edit fs (.method (.selectInner t.innerKind))).2 = page.touch ↔
      w.method.tunnelsTls = false ∧ inner.secret.policy = session.defaultPolicy := by
  obtain ⟨adhoc, hwell⟩ := h.wellFormed _ hs
  have hfits : (AuthMethod.tunnel t inner).Fits w.methodKind := hmethod ▸ hwell.fits.2.2
  have hsound : inner.secret.Sound := by
    have hsound := hwell.sound
    rwa [Security.secret, hmethod] at hsound
  rw [hmethod, h.edit_selectInner_self hs hmethod]
  exact (touch_eq_iff hs hmethod _).trans (AuthMethod.rechosen_eq_iff hfits hsound)

/-! ## Every menu -/

/-- **Choosing what is chosen already.** Take a page that any run of actions has reached. Choosing
the type of security once more succeeds and leaves the page as it is, if the page was filled and all
profiles that were loaded are of its medium; choosing the method for 802.1x or the WEP key once more
succeeds and leaves all but the state, which says that the security was taken out for editing, and
so makes no difference to a save. Choosing the method inside a tunnel once more succeeds too, but
makes the method of the entry anew: it keeps the user name, and is put under the usual policy of the
session, which keeps the text and the reveal toggle or takes them away. So all is left exactly if
the method of the entry is inside, which it is unless TLS was put there, and is under this policy
already. In any case a save that succeeds afterwards merges the usual policy into the flags of the
password. -/
theorem choosing_again (session : Session) (store : Waiver.Store) (actions : List Action) :
    let page := (Page.new session store).run actions
    ((∀ a ∈ actions, a.OfMedium session.medium) → page.state ≠ .uninitialized →
      ∀ p, page.select page.kind p = .ok page) ∧
    (∀ fs w, page.security = some (.enterprise w) →
      page.edit fs (.selectMethod w.methodKind) = (.done, page.touch)) ∧
    (∀ fs w, page.security = some (.wep w) →
      page.edit fs (.wepKey w.index) = (.done, page.touch)) ∧
    (∀ fs p, page.touch.save fs p = page.save fs p) ∧
    ∀ fs w t inner, page.security = some (.enterprise w) → w.method = .tunnel t inner →
      let after := page.edit fs (.method (.selectInner t.innerKind))
      let remade := AuthMethod.rechosen session t inner
      after = (.done, { page.touch with
        security := some (.enterprise { w with method := .tunnel t remade }) }) ∧
      (after.2 = page.touch ↔
        w.method.tunnelsTls = false ∧ inner.secret.policy = session.defaultPolicy) ∧
      ∀ fs p report, (after.2.save fs p).result = .ok report →
        ∃ flags, (after.2.save fs p).profile.secretFlags? (.authentication .password) = some flags ∧
          session.defaultPolicy.Merged (p.secretFlags (.authentication .password)) flags := by
  intro page
  have hcoherent : page.Coherent session := coherent_run session store actions
  have hsession := hcoherent.session_eq
  refine ⟨fun hmedium hstate p => ?_, fun fs w hs => ?_, fun fs w hs => ?_, page.save_touch, ?_⟩
  · have hmem : page.kind ∈ page.menu := by
      rw [Page.menu, hsession]
      exact (placed_run hmedium store).kind_mem
    rw [Page.select, if_neg (by simpa using hmem), if_pos ⟨rfl, hstate⟩]
  · refine edit_of_same hs ?_
    simp only [Security.edit, Security.Enterprise.selectMethod_self]
  · have hall : ∀ a ∈ actions, a.Edits fun _ => True := by
      intro a _
      cases a <;> trivial
    refine edit_of_same hs ?_
    simp only [Security.edit,
      Security.Wep.selectKey_self ((lasting_shownOnce session).run hall store _ hs)]
  · intro fs w t inner hs hmethod after remade
    have hafter : after = (.done, { page.touch with
        security := some (.enterprise { w with method := .tunnel t remade }) }) :=
      hcoherent.edit_selectInner_self hs hmethod
    refine ⟨hafter, hcoherent.edit_selectInner_self_iff hs hmethod, fun fs p report h => ?_⟩
    have hsaved : after.2.security =
        some (.enterprise { w with method := .tunnel t remade }) := by
      rw [hafter]
    have hpolicy : (Security.enterprise { w with method := .tunnel t remade }).secret.policy =
        session.defaultPolicy := Control.policy_setPolicy _ _
    refine ⟨_, secretFlags?_save hsaved h, ?_⟩
    rw [hpolicy]
    exact Policy.merged_applyTo _ _

/-- On a page with a PEAP tunnel all entries that are chosen are chosen once more, and nothing
changes. -/
theorem choosing_again_choosePeap :
    let page := (Page.new (.forProfile keyed {} false) .inMemory).run choosePeap
    page.select .wpaEnterprise keyed = .ok page ∧
      page.edit (.blank []) (.selectMethod .peap) = (.done, page.touch) ∧
      page.edit (.blank []) (.method (.selectInner .mschapv2)) = (.done, page.touch) := by
  intro page
  obtain ⟨hselect, hmethod, -, -, hinner⟩ :=
    choosing_again (.forProfile keyed {} false) .inMemory choosePeap
  have hmedium : ∀ a ∈ choosePeap, a.OfMedium .wireless := by
    simp [choosePeap, Action.OfMedium, keyed, Profile.newWireless]
  have hstate : page.state = .editing := by cbv
  have hkind : page.kind = .wpaEnterprise := by cbv
  have hs : page.security = some (.enterprise ⟨false, .wireless, .peap,
      .tunnel ⟨.peap .automatic, "", .empty .outer, .mschapv2⟩
        (.password ⟨.mschapv2, .inner, .empty .stored⟩)⟩) := by cbv
  refine ⟨?_, hmethod _ _ hs, ?_⟩
  · rw [← hkind]
    refine hselect hmedium ?_ keyed
    rw [hstate]
    decide
  · obtain ⟨hafter, hsame, -⟩ := hinner (.blank []) _ _ _ hs rfl
    refine Prod.ext ?_ (hsame.2 ⟨rfl, rfl⟩)
    exact congrArg Prod.fst hafter

/-- A profile with a PEAP tunnel, whose password an agent keeps. -/
def entrusted : Profile :=
  { home.secureWith (.ofKeyMgmt "wpa-eap") with
    authentication := some
      { eap := ["peap"]
        identity := some "me"
        password := some "pass"
        passwordFlags := .agentOwned
        innerAuth := some "mschapv2" } }

/-- On the page of this profile, choosing the method inside the tunnel once more puts the password
under another policy. It is saved for the agent if nothing is chosen, and else in the profile. -/
theorem choosing_again_forgets_agent :
    let page := (Page.new homeSession .inMemory).load (.blank []) entrusted
    let after := page.edit (.blank []) (.method (.selectInner .mschapv2))
    page.security = some (.enterprise ⟨false, .wireless, .peap,
        .tunnel ⟨.peap .automatic, "", .empty .outer, .mschapv2⟩
          (.password ⟨.mschapv2, .inner, ⟨"me", ⟨"pass", .agentOwned, false⟩⟩⟩)⟩) ∧
      after.1 = .done ∧
      after.2.security.map (·.secret) = some ⟨"pass", .stored, false⟩ ∧
      (page.save (.blank []) entrusted).profile.authentication.map (·.passwordFlags) =
        some .agentOwned ∧
      (after.2.save (.blank []) entrusted).profile.authentication.map (·.passwordFlags) =
        some .none := by
  refine ⟨?_, ?_, ?_, ?_, ?_⟩
  · cbv
  · cbv
  · cbv
  · cbv
  · cbv

end Page

end ConnectionSecurity
