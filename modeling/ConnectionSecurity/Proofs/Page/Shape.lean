import ConnectionSecurity.Proofs.Page.Order
import ConnectionSecurity.Proofs.Security.Shape

/-!
# The shape of a page

A page keeps in several places what belongs together: the kind and the security behind it, the menu
entry of a method and the method, the menu entry of what runs inside a tunnel and what runs there,
the key that is shown and the stash of the others. `Regular` says that they agree. They do after
every run that loads profiles of the medium of the page and keeps to the menus, and then a choice is
refused exactly if a menu lacks it, and changes nothing (`regular_run`).
-/

namespace ConnectionSecurity.Page

open Method

variable {page : Page} {session : Session}

/-- What belongs together agrees. -/
structure Regular (session : Session) (page : Page) : Prop where
  kind_mem : page.kind ∈ SecurityKind.menu session.medium
  security_eq_none : page.security = none ↔ page.kind = .none
  kind_eq : ∀ s, page.security = some s → s.kind = page.kind
  /-- One of the four keys is shown, and the stash does not hold it as well. -/
  wep : ∀ w, page.security = some (.wep w) → w.index.val < 4 ∧ w.stash[w.index.val]? = some ""
  /-- The method is that of its menu entry, runs over the medium, and runs on its own. -/
  enterprise : ∀ w, page.security = some (.enterprise w) →
    w.medium = session.medium ∧ w.methodKind ∈ MethodKind.menu session.medium ∧
    w.method.name = w.methodKind.name ∧ w.method.phase = .outer
  /-- What runs inside a tunnel is the password method of its menu entry, in the slot that the
  tunnel prescribes for it. -/
  tunnel : ∀ w t inner, page.security = some (.enterprise w) → w.method = .tunnel t inner →
    t.innerKind ∈ t.kind.menu ∧
    ∃ login, inner = .password ⟨t.innerKind.method, t.kind.slot t.innerKind, login⟩
  /-- A secret that is not saved has no text. -/
  secret : ∀ s, page.security = some s → s.secret.policy = .notSaved →
    s.secret.text = "" ∧ s.secret.revealed = false

/-! ## What lasts -/

theorem lasting_shownOnce (session : Session) :
    Lasting session (fun _ => True) Security.ShownOnce where
  made := Security.shownOnce_ofKind?
  loadSecrets p h := h.loadSecrets p
  edit _ _ _ _ h := h.edit _

theorem lasting_tunnelsTls (session : Session) :
    Lasting session Security.Edit.KeepsToMenus (·.tunnelsTls = false) where
  made := Security.tunnelsTls_ofKind?
  loadSecrets p h := (Security.tunnelsTls_loadSecrets _ p).trans h
  edit _ _ hwell he h := hwell.tunnelsTls_edit h he

/-! ## The shape -/

/-- Every type of security but none has something behind it. -/
theorem Coherent.security_eq_none (h : page.Coherent session) (hkind : page.kind = .none) :
    page.security = none := by
  cases hs : page.security with
  | none => rfl
  | some s =>
      obtain ⟨adhoc, hwell⟩ := h.wellFormed s hs
      have hnone : s.kind = .none := hwell.kind.trans hkind
      cases s with
      | personal w => cases hsae : w.sae <;> simp [Security.kind, hsae] at hnone
      | enterprise w => cases hdynamic : w.dynamicWep <;> simp [Security.kind, hdynamic] at hnone
      | _ => cases hnone

/-- A page is regular if its kind is from the menu, its key is shown once, and TLS was not put into
its tunnel. -/
theorem Coherent.regular (h : page.Coherent session) (hplaced : page.Placed session)
    (hshown : ∀ s, page.security = some s → s.ShownOnce)
    (htls : ∀ s, page.security = some s → s.tunnelsTls = false) : page.Regular session := by
  have hfits : ∀ w, page.security = some (.enterprise w) → w.medium = session.medium ∧
      w.methodKind.runsOver session.medium = true ∧ w.method.Fits w.methodKind := by
    intro w hs
    obtain ⟨adhoc, hwell⟩ := h.wellFormed _ hs
    exact hwell.fits
  constructor
  · exact hplaced.kind_mem
  · exact ⟨hplaced.kind_eq_none, h.security_eq_none⟩
  · intro s hs
    obtain ⟨adhoc, hwell⟩ := h.wellFormed s hs
    exact hwell.kind
  · intro w hs
    exact ⟨w.index.isLt, hshown _ hs⟩
  · intro w hs
    obtain ⟨hmedium, hruns, hmethod⟩ := hfits w hs
    exact ⟨hmedium, MethodKind.mem_menu_iff.2 hruns, hmethod.name_eq, hmethod.phase_eq⟩
  · intro w t inner hs hmethod
    obtain ⟨-, -, hmade⟩ := hfits w hs
    have htunnel : w.method.tunnelsTls = false := htls _ hs
    rw [hmethod] at hmade htunnel
    exact hmade.exists_password htunnel
  · intro s hs hpolicy
    obtain ⟨adhoc, hwell⟩ := h.wellFormed s hs
    apply hwell.sound
    rw [hpolicy]
    rfl

/-! ## Refusals -/

/-- A type of security is refused exactly if the menu lacks it. -/
theorem select_refused_iff (page : Page) (kind : SecurityKind) (p : Profile) :
    (∃ r, page.select kind p = .error r) ↔ kind ∉ page.menu := by
  unfold Page.select
  split
  next hnot => exact ⟨fun _ => by simpa using hnot, fun _ => ⟨_, rfl⟩⟩
  next hmem =>
    refine ⟨fun ⟨r, hr⟩ => ?_, fun hnot => absurd (by simpa using hnot) hmem⟩
    split at hr <;> cases hr

/-- A refused choice leaves a page as it was. -/
theorem act_select_of_refused {kind : SecurityKind} (h : kind ∉ page.menu) (p : Profile) :
    page.act (.select kind p) = page := by
  have hnot : page.menu.contains kind = false := by simpa using h
  rw [act_select, if_pos (.inl hnot)]

/-- A choice among methods or keys is refused exactly if the menu lacks it. The page is then as it is
when its security is taken out for editing. -/
theorem Coherent.edit_refused_iff (h : page.Coherent session) (fs : FileSystem)
    (e : Security.Edit) :
    ((∃ r, (page.edit fs e).1 = .refused r) ↔ ∃ s, page.security = some s ∧ s.Lacks e) ∧
      ((∃ r, (page.edit fs e).1 = .refused r) → (page.edit fs e).2 = page.touch) := by
  obtain ⟨rfl, hwell⟩ := h
  unfold Page.edit Page.touch
  cases hs : page.security with
  | none => simp
  | some s =>
      obtain ⟨adhoc, hwell⟩ := hwell s hs
      constructor
      · exact (hwell.refused_iff e).trans (by simp)
      · rintro ⟨r, hr⟩
        obtain ⟨-, hsame⟩ := hwell.lacks_of_refused hr
        simp only [hsame, ← hs]
        rw [if_pos (by rw [hs]; rfl)]

/-! ## Every run -/

/-- **A page keeps its shape.** Take a page that any run of actions has reached whose loads are of
the medium of the page and whose edits keep to the menus. What belongs together on it agrees. A
choice is refused exactly if a menu lacks the entry: that of the page, that of the medium, that of a
tunnel, or the four keys of WEP. A refused choice changes nothing, but for the state that says that
the security was taken out for editing. -/
theorem regular_run (session : Session) (store : Waiver.Store) (actions : List Action)
    (hmedium : ∀ a ∈ actions, a.OfMedium session.medium)
    (hmenus : ∀ a ∈ actions, a.Edits Security.Edit.KeepsToMenus) :
    let page := (Page.new session store).run actions
    page.Regular session ∧
    (∀ kind p,
      ((∃ r, page.select kind p = .error r) ↔ kind ∉ SecurityKind.menu session.medium) ∧
      ((∃ r, page.select kind p = .error r) → page.act (.select kind p) = page)) ∧
    ∀ fs e,
      ((∃ r, (page.edit fs e).1 = .refused r) ↔ ∃ s, page.security = some s ∧ s.Lacks e) ∧
      ((∃ r, (page.edit fs e).1 = .refused r) → (page.edit fs e).2 = page.touch) := by
  intro page
  have hcoherent : page.Coherent session := coherent_run session store actions
  have hplaced : page.Placed session := placed_run hmedium store
  have hall : ∀ a ∈ actions, a.Edits fun _ => True := by
    intro a _
    cases a <;> trivial
  refine ⟨?_, fun kind p => ⟨?_, fun hr => ?_⟩, hcoherent.edit_refused_iff⟩
  · apply hcoherent.regular hplaced
    · exact (lasting_shownOnce session).run hall store
    · exact (lasting_tunnelsTls session).run hmenus store
  · rw [← hplaced.session_eq]
    exact page.select_refused_iff kind p
  · exact act_select_of_refused ((page.select_refused_iff kind p).1 hr) p

/-- A page on which 802.1x with a PEAP tunnel was chosen. -/
def choosePeap : List Action :=
  [.load (.blank []) keyed, .select .wpaEnterprise keyed, .edit (.blank []) (.selectMethod .peap)]

/-- The page with the tunnel has the shape, and refuses to run PAP inside. -/
theorem regular_run_choosePeap :
    let session := Session.forProfile keyed {} false
    let page := (Page.new session .inMemory).run choosePeap
    page.Regular session ∧
      (page.edit (.blank []) (.method (.selectInner .pap))).1 = .refused ⟨"PAP", "PEAP"⟩ ∧
      (page.edit (.blank []) (.method (.selectInner .pap))).2 = page.touch := by
  intro session page
  have hmedium : ∀ a ∈ choosePeap, a.OfMedium .wireless := by
    simp [choosePeap, Action.OfMedium, keyed, Profile.newWireless]
  have hmenus : ∀ a ∈ choosePeap, a.Edits Security.Edit.KeepsToMenus := by
    simp [choosePeap, Action.Edits, Security.Edit.KeepsToMenus]
  have hrefused :
      (page.edit (.blank []) (.method (.selectInner .pap))).1 = .refused ⟨"PAP", "PEAP"⟩ := by cbv
  obtain ⟨hregular, -, hedit⟩ := regular_run session .inMemory choosePeap hmedium hmenus
  exact ⟨hregular, hrefused, (hedit _ _).2 ⟨_, hrefused⟩⟩

end ConnectionSecurity.Page
