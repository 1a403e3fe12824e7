import ConnectionSecurity.Proofs.Security.Invariant
import ConnectionSecurity.Security.Page

/-!
# Everything that can be done to a page

An action is one thing that is done to a page, and a run is a list of them. An action leaves the
security of the page as it is, but for an edit or a fill, or makes a new one (`act_cases`). What
every action keeps holds at the end of every run (`run_keeps`): `Coherent` whatever the profiles
are, `Placed` if those that are loaded are of the medium of the page, and `WellFormed` if moreover
the mode of the network is the same in all of them. A property of the security alone lasts if every
new one has it and every edit keeps it (`Lasting.run`).
-/

namespace ConnectionSecurity

variable {fs : FileSystem} {session : Session} {p : Profile}

/-! ## The kind in a profile -/

theorem SecurityKind.ofProfile_mem_menu (p : Profile) :
    SecurityKind.ofProfile p ∈ SecurityKind.menu p.connection.medium := by
  have hall : ∀ kind, kind ∈ SecurityKind.menu .wireless := by
    intro kind
    cases kind with
    | wep type => cases type <;> decide
    | _ => decide
  unfold ofProfile
  cases p.connection.medium with
  | wireless => exact hall _
  | wired => cases p.authentication <;> simp [menu]

/-- Without its security, a profile stands for none. -/
theorem SecurityKind.ofProfile_clearSecurity (p : Profile) :
    SecurityKind.ofProfile p.clearSecurity = .none := by
  unfold ofProfile
  cases p.clearSecurity.connection.medium <;> rfl

theorem Security.ofKind?_eq_none {kind : SecurityKind} {waivers : Waiver.Table} :
    Security.ofKind? kind p session waivers = none ↔ kind = .none := by
  cases kind <;> simp [ofKind?]

namespace Page

/-! ## Actions -/

/-- Something that is done to a page. -/
inductive Action where
  | load (fs : FileSystem) (p : Profile)
  | select (kind : SecurityKind) (p : Profile)
  /-- Take the security out for editing. -/
  | touch
  | edit (fs : FileSystem) (e : Security.Edit)
  | loadSecrets (p : Profile)
  | validate (fs : FileSystem) (p : Profile)
  | save (fs : FileSystem) (p : Profile)
  /-- The table of waivers, which pages share, is changed from elsewhere. -/
  | waivers (table : Waiver.Table)

/-- The page after an action. A refused choice leaves it as it was. -/
def act (page : Page) : Action → Page
  | .load fs p => page.load fs p
  | .select kind p =>
    match page.select kind p with
    | .ok page => page
    | .error _ => page
  | .touch => page.touch
  | .edit fs e => (page.edit fs e).2
  | .loadSecrets p => page.loadSecrets p
  | .validate fs p => (page.validate fs p).2
  | .save fs p => (page.save fs p).page
  | .waivers table => { page with store := { page.store with table } }

/-- The page after actions in order. -/
def run (page : Page) (actions : List Action) : Page := actions.foldl act page

theorem run_concat (page : Page) (actions : List Action) (a : Action) :
    page.run (actions ++ [a]) = (page.run actions).act a := List.foldl_append ..

/-- What every action of a sort keeps holds after every run of such actions. -/
theorem run_keeps {I : Page → Prop} {sort : Action → Prop}
    (hact : ∀ page a, sort a → I page → I (page.act a)) {actions : List Action}
    (hactions : ∀ a ∈ actions, sort a) {page : Page} (hpage : I page) : I (page.run actions) := by
  induction actions generalizing page with
  | nil => exact hpage
  | cons a rest ih =>
      obtain ⟨ha, hrest⟩ := List.forall_mem_cons.1 hactions
      exact ih hrest (hact page a ha hpage)

/-- The profile that an action fills a page from is of the medium of the page, and its network has
an access point or not as all the others. -/
def Action.Suits (medium : Medium) (adhoc : Bool) : Action → Prop
  | load _ p => p.connection.medium = medium ∧ p.isAdhoc = adhoc
  | select _ p => p.isAdhoc = adhoc
  | _ => True

variable {page page' : Page} {adhoc : Bool}

/-! ## What an action can do -/

theorem same_touch : page.touch.session = page.session ∧ page.touch.kind = page.kind ∧
    page.touch.security = page.security := by
  unfold Page.touch
  split <;> exact ⟨rfl, rfl, rfl⟩

/-! A page without security has nothing to take out, to edit or to read. -/

theorem touch_of_none (h : page.security = none) : page.touch = page := by
  rw [Page.touch, h]
  rfl

theorem edit_of_none (h : page.security = none) (fs : FileSystem) (e : Security.Edit) :
    page.edit fs e = (.notApplicable, page) := by
  rw [Page.edit, h]

theorem loadSecrets_of_none (h : page.security = none) (p : Profile) :
    page.loadSecrets p = page := by
  rw [Page.loadSecrets, touch_of_none h, h, Option.map_none, ← h]

theorem same_validate (fs : FileSystem) (p : Profile) :
    (page.validate fs p).2.session = page.session ∧ (page.validate fs p).2.kind = page.kind ∧
      (page.validate fs p).2.security = page.security := by
  unfold Page.validate
  split <;> exact ⟨rfl, rfl, rfl⟩

theorem same_write (fs : FileSystem) (p : Profile) :
    (page.write fs p).2.session = page.session ∧ (page.write fs p).2.kind = page.kind ∧
      (page.write fs p).2.security = page.security := by
  unfold Page.write
  split <;> exact ⟨rfl, rfl, rfl⟩

theorem same_save (fs : FileSystem) (p : Profile) :
    (page.save fs p).page.session = page.session ∧ (page.save fs p).page.kind = page.kind ∧
      (page.save fs p).page.security = page.security := by
  have hvalidate := page.same_validate fs p
  unfold Page.save
  cases hv : page.validate fs p with
  | mk result validated =>
      rw [hv] at hvalidate
      obtain ⟨hsession, hkind, hsecurity⟩ := hvalidate
      have hwrite := validated.same_write fs p
      rw [hsession, hkind, hsecurity] at hwrite
      cases result with
      | error fault => exact ⟨hsession, hkind, hsecurity⟩
      | ok report =>
          simp only
          split <;> exact hwrite

/-- A choice from the menu starts anew, unless it is refused or chosen already. -/
theorem act_select (page : Page) (kind : SecurityKind) (p : Profile) :
    page.act (.select kind p) =
      if page.menu.contains kind = false ∨
        kind = page.kind ∧ page.state ≠ PageState.uninitialized then page
      else
        { page with
          kind
          security := Security.ofKind? kind p.clearSecurity page.session page.store.table
          state := .configured } := by
  show (match page.select kind p with | .ok page => page | .error _ => page) = _
  unfold Page.select
  by_cases hmenu : page.menu.contains kind = false
  · rw [if_pos hmenu, if_pos (.inl hmenu)]
  · by_cases hsame : kind = page.kind ∧ page.state ≠ PageState.uninitialized
    · rw [if_neg hmenu, if_pos hsame, if_pos (.inr hsame)]
    · rw [if_neg hmenu, if_neg hsame, if_neg (not_or.2 ⟨hmenu, hsame⟩)]

/-- A change that keeps every security well formed. -/
def Harmless (medium : Medium) (f : Security → Security) : Prop :=
  ∀ s kind adhoc, s.WellFormed kind medium adhoc → (f s).WellFormed kind medium adhoc

/-- Where the kind and the profile of a new security come from. -/
inductive Filled (page : Page) : Action → SecurityKind → Profile → Prop where
  | load (fs : FileSystem) (p : Profile) : Filled page (.load fs p) (.ofProfile p) p
  | select (kind : SecurityKind) (p : Profile) (h : kind ∈ page.menu) :
      Filled page (.select kind p) kind p.clearSecurity

/-- The security stays behind its kind, with a harmless change. -/
def Changed (page page' : Page) : Prop :=
  page'.kind = page.kind ∧
    ∃ f, Harmless page.session.medium f ∧ page'.security = page.security.map f

/-- The page has a new security, with a harmless change. -/
def Renewed (page : Page) (a : Action) (page' : Page) : Prop :=
  ∃ kind p table f, page.Filled a kind p ∧ Harmless page.session.medium f ∧ page'.kind = kind ∧
    page'.security = (Security.ofKind? kind p page.session table).map f

theorem changed_of_same (h : page'.session = page.session ∧ page'.kind = page.kind ∧
    page'.security = page.security) : page'.session = page.session ∧ page.Changed page' := by
  obtain ⟨hsession, hkind, hsecurity⟩ := h
  refine ⟨hsession, hkind, id, fun _ _ _ h => h, ?_⟩
  rw [hsecurity, Option.map_id, id]

/-- **What an action can do to the security of a page.** It stays, but for a harmless change, or
it is a new one that a menu entry makes of a profile. -/
theorem act_cases (page : Page) (a : Action) : (page.act a).session = page.session ∧
    (page.Changed (page.act a) ∨ page.Renewed a (page.act a)) := by
  cases a with
  | load fs p =>
      exact ⟨rfl, .inr ⟨_, p, _, (·.loadSecrets p), .load fs p, fun _ _ _ h => h.loadSecrets p,
        rfl, rfl⟩⟩
  | select kind p =>
      rw [act_select]
      split
      next => exact (changed_of_same ⟨rfl, rfl, rfl⟩).imp id .inl
      next hnew =>
        have hmenu : kind ∈ page.menu := by simpa using (not_or.1 hnew).1
        exact ⟨rfl, .inr ⟨kind, p.clearSecurity, _, id, .select kind p hmenu, fun _ _ _ h => h, rfl,
          by rw [Option.map_id, id]⟩⟩
  | touch => exact (changed_of_same page.same_touch).imp id .inl
  | edit fs e =>
      refine ⟨?_, .inl ⟨?_, fun s => (s.edit fs page.session page.store.table e).2, ?_, ?_⟩⟩
      · show (page.edit fs e).2.session = _
        unfold Page.edit
        cases page.security <;> rfl
      · show (page.edit fs e).2.kind = _
        unfold Page.edit
        cases page.security <;> rfl
      · exact fun _ _ _ h => h.edit e
      · show (page.edit fs e).2.security = _
        unfold Page.edit
        cases hs : page.security with
        | none => exact hs
        | some s => rfl
  | loadSecrets p =>
      exact ⟨page.same_touch.1, .inl ⟨page.same_touch.2.1, (·.loadSecrets p),
        fun _ _ _ h => h.loadSecrets p, rfl⟩⟩
  | validate fs p => exact (changed_of_same (page.same_validate fs p)).imp id .inl
  | save fs p => exact (changed_of_same (page.same_save fs p)).imp id .inl
  | waivers table => exact (changed_of_same ⟨rfl, rfl, rfl⟩).imp id .inl

/-! ## The menu -/

/-- The profile that an action loads is of the medium of the page. -/
def Action.OfMedium (medium : Medium) : Action → Prop
  | load _ p => p.connection.medium = medium
  | _ => True

theorem Action.Suits.ofMedium {a : Action} {medium : Medium} (h : a.Suits medium adhoc) :
    a.OfMedium medium := by
  cases a with
  | load fs p => exact h.1
  | _ => trivial

/-- The kind of the page is one of its menu, and only the kind without security has none. -/
structure Placed (session : Session) (page : Page) : Prop where
  session_eq : page.session = session
  kind_mem : page.kind ∈ SecurityKind.menu session.medium
  kind_eq_none : page.security = none → page.kind = .none

theorem placed_new (session : Session) (store : Waiver.Store) :
    (Page.new session store).Placed session := by
  refine ⟨rfl, ?_, fun _ => rfl⟩
  show SecurityKind.none ∈ SecurityKind.menu session.medium
  cases session.medium <;> decide

/-- An action that fills a page takes the kind from the menu. -/
theorem Filled.mem_menu {a : Action} {kind : SecurityKind} (h : page.Filled a kind p)
    (ha : a.OfMedium page.session.medium) : kind ∈ page.menu := by
  cases h with
  | load fs p =>
      have hmedium : p.connection.medium = page.session.medium := ha
      rw [menu, ← hmedium]
      exact SecurityKind.ofProfile_mem_menu p
  | select kind p hmem => exact hmem

/-- Every action of the medium keeps the kind of a page in its menu. -/
theorem Placed.act (h : page.Placed session) {a : Action} (ha : a.OfMedium session.medium) :
    (page.act a).Placed session := by
  obtain ⟨rfl, hmem, hnone⟩ := h
  obtain ⟨hsession, hcases⟩ := page.act_cases a
  rcases hcases with ⟨hkind, f, -, hsecurity⟩ | ⟨kind, p, table, f, hfilled, -, hkind, hsecurity⟩
  · refine ⟨hsession, hkind ▸ hmem, fun hn => ?_⟩
    rw [hsecurity, Option.map_eq_none_iff] at hn
    rw [hkind, hnone hn]
  · refine ⟨hsession, hkind ▸ hfilled.mem_menu ha, fun hn => ?_⟩
    rw [hsecurity, Option.map_eq_none_iff] at hn
    rw [hkind, Security.ofKind?_eq_none.1 hn]

/-- The kind of a page is in its menu after every run from an empty page. -/
theorem placed_run {actions : List Action} (hactions : ∀ a ∈ actions, a.OfMedium session.medium)
    (store : Waiver.Store) : ((Page.new session store).run actions).Placed session :=
  run_keeps (fun _ _ ha h => h.act ha) hactions (placed_new session store)

/-! ## The invariant -/

/-- What holds of a page at all times. -/
structure WellFormed (session : Session) (adhoc : Bool) (page : Page) : Prop where
  session_eq : page.session = session
  kind_mem : page.kind ∈ SecurityKind.menu session.medium
  kind_eq_none : page.security = none → page.kind = .none
  wellFormed : ∀ s, page.security = some s → s.WellFormed page.kind session.medium adhoc

theorem wellFormed_new (session : Session) (store : Waiver.Store) (adhoc : Bool) :
    (Page.new session store).WellFormed session adhoc :=
  ⟨rfl, (placed_new session store).kind_mem, fun _ => rfl, fun s hs => by cases hs⟩

/-- An action that suits a page takes the mode from the network. -/
theorem Filled.isAdhoc_eq {a : Action} {kind : SecurityKind} {medium : Medium}
    (h : page.Filled a kind p) (ha : a.Suits medium adhoc) : p.isAdhoc = adhoc := by
  cases h with
  | load fs p => exact ha.2
  | select kind p hmem => exact (Profile.isAdhoc_clearSecurity p).trans ha

/-- Every action that suits a page keeps it well formed. -/
theorem WellFormed.act (h : page.WellFormed session adhoc) {a : Action}
    (ha : a.Suits session.medium adhoc) : (page.act a).WellFormed session adhoc := by
  obtain ⟨rfl, hmem, hnone, hwell⟩ := h
  have hplaced : (page.act a).Placed page.session := Placed.act ⟨rfl, hmem, hnone⟩ ha.ofMedium
  refine ⟨hplaced.session_eq, hplaced.kind_mem, hplaced.kind_eq_none, fun s hs => ?_⟩
  -- Either the old security under a harmless change, or one that a menu entry has just made.
  obtain ⟨-, ⟨hkind, f, hf, hsecurity⟩ | ⟨kind, p, table, f, hfilled, hf, hkind, hsecurity⟩⟩ :=
    page.act_cases a
  · obtain ⟨old, hold, rfl⟩ := Option.map_eq_some_iff.1 (hsecurity.symm.trans hs)
    rw [hkind]
    exact hf _ _ _ (hwell old hold)
  · obtain rfl := hfilled.isAdhoc_eq ha
    obtain ⟨old, hold, rfl⟩ := Option.map_eq_some_iff.1 (hsecurity.symm.trans hs)
    rw [hkind]
    exact hf _ _ _ (Security.wellFormed_ofKind? hold)

/-- What every run from an empty page keeps. -/
theorem wellFormed_run {actions : List Action}
    (hactions : ∀ a ∈ actions, a.Suits session.medium adhoc) (store : Waiver.Store) :
    ((Page.new session store).run actions).WellFormed session adhoc :=
  run_keeps (fun _ _ ha h => h.act ha) hactions (wellFormed_new session store adhoc)

/-! ## What holds whatever fills a page -/

/-- The security behind a page is that of its kind, made for its session. Nothing is asked of the
profiles that the page was filled from. -/
structure Coherent (session : Session) (page : Page) : Prop where
  session_eq : page.session = session
  wellFormed : ∀ s, page.security = some s → ∃ adhoc, s.WellFormed page.kind session.medium adhoc

/-- Every action keeps a page coherent. -/
theorem Coherent.act (h : page.Coherent session) (a : Action) : (page.act a).Coherent session := by
  obtain ⟨rfl, hwell⟩ := h
  obtain ⟨hsession, hcases⟩ := page.act_cases a
  refine ⟨hsession, fun s hs => ?_⟩
  rcases hcases with ⟨hkind, f, hf, hsecurity⟩ | ⟨kind, p, table, f, -, hf, hkind, hsecurity⟩
  · obtain ⟨old, hold, rfl⟩ := Option.map_eq_some_iff.1 (hsecurity.symm.trans hs)
    obtain ⟨adhoc, hwell⟩ := hwell old hold
    rw [hkind]
    exact ⟨adhoc, hf _ _ _ hwell⟩
  · obtain ⟨old, hold, rfl⟩ := Option.map_eq_some_iff.1 (hsecurity.symm.trans hs)
    rw [hkind]
    exact ⟨p.isAdhoc, hf _ _ _ (Security.wellFormed_ofKind? hold)⟩

/-- A page is coherent after every run from an empty one. -/
theorem coherent_run (session : Session) (store : Waiver.Store) (actions : List Action) :
    ((Page.new session store).run actions).Coherent session :=
  run_keeps (fun _ a _ h => h.act a) (fun _ _ => trivial) ⟨rfl, fun s hs => by cases hs⟩

/-! ## What lasts -/

/-- The edits among the actions are of a given sort. -/
def Action.Edits (suits : Security.Edit → Prop) : Action → Prop
  | edit _ e => suits e
  | _ => True

/-- A property that every security has from the start, and that edits of a given sort keep. -/
structure Lasting (session : Session) (suits : Security.Edit → Prop) (P : Security → Prop) :
    Prop where
  made : ∀ {kind p waivers s}, Security.ofKind? kind p session waivers = some s → P s
  loadSecrets : ∀ {s} p, P s → P (s.loadSecrets p)
  edit : ∀ {s e kind adhoc} fs waivers, s.WellFormed kind session.medium adhoc → suits e → P s →
    P (s.edit fs session waivers e).2

variable {suits : Security.Edit → Prop} {P : Security → Prop}

theorem Lasting.act (h : Lasting session suits P) (hcoherent : page.Coherent session) {a : Action}
    (ha : a.Edits suits) (hpage : ∀ s, page.security = some s → P s) :
    ∀ s, (page.act a).security = some s → P s := by
  obtain ⟨rfl, hwell⟩ := hcoherent
  have hsame : ∀ {after : Page}, after.security = page.security →
      ∀ s, after.security = some s → P s := fun heq s hs => hpage s (heq ▸ hs)
  intro s hs
  cases a with
  | load fs p =>
      obtain ⟨made, hmade, rfl⟩ := Option.map_eq_some_iff.1 hs
      exact h.loadSecrets p (h.made hmade)
  | select kind p =>
      rw [act_select] at hs
      split at hs
      next => exact hpage s hs
      next => exact h.made hs
  | touch => exact hsame page.same_touch.2.2 s hs
  | edit fs e =>
      have hedit : (page.edit fs e).2.security = some s := hs
      unfold Page.edit at hedit
      cases hold : page.security with
      | none =>
          rw [hold] at hedit
          exact absurd (hold.symm.trans hedit) nofun
      | some old =>
          rw [hold] at hedit
          obtain rfl := Option.some.inj hedit
          obtain ⟨adhoc, hwell⟩ := hwell old hold
          exact h.edit fs _ hwell ha (hpage old hold)
  | loadSecrets p =>
      obtain ⟨old, hold, rfl⟩ := Option.map_eq_some_iff.1 hs
      exact h.loadSecrets p (hpage old hold)
  | validate fs p => exact hsame (page.same_validate fs p).2.2 s hs
  | save fs p => exact hsame (page.same_save fs p).2.2 s hs
  | waivers table => exact hpage s hs

/-- What lasts holds of the security of a page after every run from an empty page. -/
theorem Lasting.run (h : Lasting session suits P) {actions : List Action}
    (hactions : ∀ a ∈ actions, a.Edits suits) (store : Waiver.Store) :
    ∀ s, ((Page.new session store).run actions).security = some s → P s := by
  let I (page : Page) := page.Coherent session ∧ ∀ s, page.security = some s → P s
  have hact : ∀ (page : Page) a, a.Edits suits → I page → I (page.act a) :=
    fun _ a ha ⟨hcoherent, hpage⟩ => ⟨hcoherent.act a, h.act hcoherent ha hpage⟩
  have hnew : I (Page.new session store) :=
    ⟨coherent_run session store [], fun s hs => by cases hs⟩
  exact (run_keeps hact hactions hnew).2

end Page

end ConnectionSecurity
