import ConnectionSecurity.Proofs.Method.Nag
import ConnectionSecurity.Proofs.Page.Reopen
import ConnectionSecurity.Proofs.Waiver.Rows

/-!
# A page that is opened again nags as before

A chooser nags about what it writes, and a page that is opened again nags about the same phases as
the page that was saved (`nags_again`). The row of the connection has to be the one that the save
left. A save that succeeds has persisted its row, and a load reads the row that is persisted
(`row_load_saved`).

TLS that was put inside a tunnel is not read back, so of such a page only the outer phase is left.
-/

namespace ConnectionSecurity

open Method

variable {fs later : FileSystem} {session session' : Session} {p : Profile} {page : Page}
  {report report' : Report} {s : Security}

/-- The choosers of a security: only 802.1x has any. -/
def Security.choosers : Security → List CaChooser
  | enterprise w => w.method.choosers
  | _ => []

namespace Page

/-- The choosers of a page. -/
def choosers (page : Page) : List CaChooser := page.security.elim [] (·.choosers)

/-- A page with a chooser is secured by 802.1x. -/
theorem exists_enterprise (h : page.choosers ≠ []) :
    ∃ w, page.security = some (.enterprise w) ∧ page.choosers = w.method.choosers := by
  unfold choosers at h ⊢
  cases hs : page.security with
  | none => simp [hs] at h
  | some s =>
      rw [hs] at h
      cases s with
      | enterprise w => exact ⟨w, rfl, rfl⟩
      | _ => exact absurd rfl h

variable {w : Security.Enterprise} {waivers : Waiver.Table}

theorem tunnelsTls_of_enterprise (hs : page.security = some (.enterprise w)) :
    page.tunnelsTls = w.method.tunnelsTls := by
  rw [tunnelsTls, hs]
  rfl

/-! ## The row that a loaded page goes by -/

/-- After a load the row of the connection is the persisted one. If that cannot be told, it is still
the one in memory. -/
theorem row_load (page : Page) (fs : FileSystem) (p : Profile) :
    (page.load fs p).store.table.row page.session.uuid =
      (page.store.persisted? fs page.session.uuid).getD
        (page.store.table.row page.session.uuid) := by
  unfold load Waiver.Store.persisted?
  cases hpath : page.store.path with
  | none =>
      simp only [Waiver.Store.refresh_of_path_eq_none hpath]
      rfl
  | some path =>
      simp only [Waiver.Store.refresh_eq hpath]
      cases Waiver.readTable fs path with
      | error e => rfl
      | ok t =>
          show (page.store.table.put _ (t.row _)).row _ = t.row _
          rw [Waiver.Table.row_put, if_pos rfl]

/-- The waivers that a page with 802.1x writes are those of its method. -/
theorem table_write (hpage : page.Coherent session) (hs : page.security = some (.enterprise w)) :
    (page.write fs p).2.store.table =
      (w.method.write fs session (Security.Enterprise.base p session, page.store.table)).2 := by
  unfold Page.write
  rw [hs, hpage.session_eq]
  show (w.write fs session p page.store.table).2 = _
  unfold Security.Enterprise.write
  cases w.medium <;> rfl

/-- The row that was saved comes back: a page with a chooser has one to persist, and a page that is
filled while it is still persisted goes by it. -/
theorem row_load_saved (hpage : page.Coherent session) (hs : page.security = some (.enterprise w))
    (hne : w.method.choosers ≠ []) (hresult : (page.save fs p).result = .ok report)
    (hreplaces : ∀ path, page.store.path = some path → Waiver.Replaces fs path) {fresh : Page}
    (huuid : fresh.session.uuid = session.uuid)
    (hpersisted : fresh.store.persisted? later session.uuid =
      (page.save fs p).page.store.persisted? (page.save fs p).fs session.uuid) (q : Profile) :
    (fresh.load later q).store.table.row session.uuid =
      (page.save fs p).page.store.table.row session.uuid := by
  obtain ⟨-, -, hstore⟩ := of_save_eq_ok hresult
  have hpersist := persist_of_save_eq_ok hresult
  rw [hpage.session_eq] at hpersist
  obtain ⟨r, hr⟩ : ∃ r, (page.write fs p).2.store.table.row? session.uuid = some r := by
    rw [table_write hpage hs]
    exact AuthMethod.exists_row?_write _ _ _ _ _ (.inl hne)
  have hfound := Waiver.Store.persisted?_of_persist hr hpersist fun path hpath =>
    hreplaces path ((page.path_write fs p).symm.trans hpath)
  have hrow := fresh.row_load later q
  rw [huuid, hpersisted, hstore, hfound] at hrow
  have hmemory : (page.write fs p).2.store.table.row session.uuid = r := by
    rw [Waiver.Table.row, hr]
    rfl
  rw [hrow, hstore, hmemory]
  rfl

/-! ## What a fresh page makes of it -/

/-- A page with 802.1x is fit if its method is. -/
theorem validate_of_check (hs : page.security = some (.enterprise w))
    (h : page.check fs p = .ok report) : w.method.validate fs = .ok report := by
  obtain ⟨-, -, hfit⟩ := check_eq_ok.1 h
  rw [hs] at hfit
  exact hfit

/-- What a fresh page shows that loads what a page with 802.1x wrote: the method that the menu entry
makes of it. -/
theorem security_load_written (fs : FileSystem) (hpage : page.Coherent session)
    (hs : page.security = some (.enterprise w)) (hmedium : p.connection.medium = session.medium)
    (session' : Session) (hmedium' : session'.medium = session.medium) (store : Waiver.Store)
    (later : FileSystem) :
    let fresh := (Page.new session' store).load later (page.written fs p)
    let a := w.written fs session p page.store.table
    ∃ dynamicWep, fresh.security = some (.enterprise ⟨dynamicWep, session.medium, w.methodKind,
      (w.methodKind.make (some a) session' fresh.store.table).loadSecrets a⟩) := by
  intro fresh a
  obtain ⟨adhoc, hwell⟩ := hpage.wellFormed _ hs
  obtain ⟨hmade, hruns, hfits⟩ := hwell.fits
  have hwritten : page.written fs p = (w.write fs session p page.store.table).1 := by
    rw [written_of_some hs, hpage.session_eq]
    rfl
  obtain ⟨dynamicWep, hofKind⟩ := Security.Enterprise.ofKind?_ofProfile_write fs session'
    page.store.table fresh.store.table hmade hmedium
  refine ⟨dynamicWep, ?_⟩
  show (Security.ofKind? (SecurityKind.ofProfile (page.written fs p)) (page.written fs p) session'
    fresh.store.table).map (·.loadSecrets (page.written fs p)) = _
  rw [hwritten, hofKind]
  exact congrArg (some ∘ Security.enterprise)
    (Security.Enterprise.method_loadSecrets_write hruns hfits hmedium' dynamicWep)

/-- A page with 802.1x does not suit a network without an access point. -/
theorem isAdhoc_of_check (hpage : page.Coherent session)
    (hs : page.security = some (.enterprise w)) (h : page.check fs p = .ok report) :
    p.isAdhoc = false := by
  obtain ⟨adhoc, hwell⟩ := hpage.wellFormed _ hs
  have hkind : page.kind.suitsAdhoc = false := by
    rw [← hwell.kind]
    cases hdynamic : w.dynamicWep <;>
      simp [Security.kind, hdynamic, SecurityKind.suitsAdhoc]
  obtain ⟨-, hadhoc, -⟩ := check_eq_ok.1 h
  cases hp : p.isAdhoc with
  | false => rfl
  | true => exact absurd (hadhoc hp) (by simp [hkind])

/-- A fresh page that loads what a page with 802.1x wrote nags about the outer phase if that page
did, and about nothing else. -/
theorem nagged_load_written (hpage : page.Coherent session)
    (hs : page.security = some (.enterprise w)) (hmedium : p.connection.medium = session.medium)
    (session' : Session) (hmedium' : session'.medium = session.medium) {store : Waiver.Store}
    (hclash : ∀ c ∈ w.method.choosers, ¬c.Clashes) (h : page.check fs p = .ok report) :
    let fresh := (Page.new session' store).load later (page.written fs p)
    fresh.store.table.row session'.uuid =
      (page.write fs p).2.store.table.row session.uuid →
    fresh.check later (page.written fs p) = .ok report' →
    nagged report' = (nagged report).filter (· = .outer) := by
  intro fresh hrow h'
  obtain ⟨adhoc, hwell⟩ := hpage.wellFormed _ hs
  obtain ⟨dynamicWep, hsecurity⟩ :=
    security_load_written fs hpage hs hmedium session' hmedium' store later
  rw [table_write hpage hs] at hrow
  exact AuthMethod.nagged_make_write _ _ _ _ _ hwell.fits.2.2 hclash (validate_of_check hs h) hrow
    (validate_of_check hsecurity h')

/-- Unless TLS runs inside its tunnel, what a page with 802.1x wrote is fit again. -/
theorem check_load_enterprise (hpage : page.Coherent session)
    (hs : page.security = some (.enterprise w)) (hmedium : p.connection.medium = session.medium)
    (session' : Session) (hmedium' : session'.medium = session.medium) (store : Waiver.Store)
    (hfs : fs.SettlesPaths) (hkeep : Credential.Keeps fs later) (htls : page.tunnelsTls = false)
    (h : page.check fs p = .ok report) :
    ∃ report', ((Page.new session' store).load later (page.written fs p)).check later
      (page.written fs p) = .ok report' := by
  obtain ⟨adhoc, hwell⟩ := hpage.wellFormed _ hs
  obtain ⟨dynamicWep, hsecurity⟩ :=
    security_load_written fs hpage hs hmedium session' hmedium' store later
  rw [tunnelsTls_of_enterprise hs] at htls
  rw [Security.Enterprise.written, AuthMethod.make_write _ _ _ hwell.fits.2.2 htls hwell.sound]
    at hsecurity
  obtain ⟨report', hreport⟩ := AuthMethod.validate_reopened _ hfs hkeep
    (validate_of_check hs h)
  refine ⟨report', check_written h ?_ ?_⟩
  · intro hadhoc
    rw [isAdhoc_of_check hpage hs h] at hadhoc
    cases hadhoc
  · rw [hsecurity]
    exact hreport

/-! ## The nag is what is written, also once the page is opened again -/

/-- **A nag says what is written, and it comes back.** Take a chooser as any load and any changes
leave it, but not just loaded with an empty path beside a ticked box. If it is fit, its report
nags about its phase exactly if it then writes neither a certificate nor a waiver.

Take further a page with a chooser that any run of actions has reached, none of whose choosers
shows an empty path beside a ticked box, and a profile that it was saved into. Let a fresh page load
this profile while the row of waivers is persisted as the save left it (in a file that the save
could replace, or in memory), or let it have this row in memory anyway. It nags about the same
phases, and it is fit. If TLS was put inside a tunnel, it need not be fit; if it is, it nags about
the same as far as the outer phase is concerned. -/
theorem nags_again :
    (∀ (a : Option Profile.Authentication) (phase : Phase) (session : Session)
      (waivers : Waiver.Table) (changes : List CaChooser.Change) (fs : FileSystem)
      (state : Profile.Authentication × Waiver.Table) (report : Report),
      let loaded := CaChooser.ofSetting a phase session waivers
      let chooser := loaded.changed changes
      let written := chooser.write fs session state
      (changes = [] → ¬loaded.Clashes) → chooser.validate fs = .ok report →
      (.missingCaCertificate phase ∈ report ↔
        (written.1.credentials phase).caCert = none ∧
          written.2.isWaived session.uuid phase = false)) ∧
    ∀ (session : Session) (store : Waiver.Store) (actions : List Action) (fs later : FileSystem)
      (p : Profile) (isNew : Bool) (store' : Waiver.Store) (report : Report),
      let page := (Page.new session store).run actions
      let saved := page.save fs p
      let fresh := (Page.new { session with isNew } store').load later saved.profile
      fs.Tidy → Credential.Keeps fs later → p.connection.medium = session.medium →
      page.choosers ≠ [] → (∀ c ∈ page.choosers, ¬c.Clashes) →
      saved.result = .ok report →
      ((∀ path, page.store.path = some path → Waiver.Replaces fs path) ∧
          store'.persisted? later session.uuid =
            saved.page.store.persisted? saved.fs session.uuid ∨
        fresh.store.table.row session.uuid = saved.page.store.table.row session.uuid) →
      (page.tunnelsTls = false → ∃ report',
        (fresh.validate later saved.profile).1 = .ok report' ∧ nagged report' = nagged report) ∧
      ∀ report', (fresh.validate later saved.profile).1 = .ok report' →
        nagged report' = (nagged report).filter (· = .outer) := by
  constructor
  · intro a phase session waivers changes fs state report loaded chooser written hloaded h
    have hphase : chooser.phase = phase := loaded.phase_changed changes
    -- Only a load can put an empty path beside a tick; the first change undoes it.
    have hclash : ¬chooser.Clashes := by
      cases changes with
      | nil => exact hloaded rfl
      | cons e rest => exact loaded.not_clashes_changed (List.cons_ne_nil e rest)
    exact hphase ▸ CaChooser.mem_validate_iff h hclash state
  · intro session store actions fs later p isNew store' report page saved fresh hfs hkeep hmedium
      hne hclash hresult hrow
    have hpage : page.Coherent session := coherent_run session store actions
    obtain ⟨w, hs, hchoosers⟩ := exists_enterprise hne
    rw [hchoosers] at hne hclash
    have hrow : fresh.store.table.row session.uuid = saved.page.store.table.row session.uuid := by
      rcases hrow with ⟨hreplaces, hpersisted⟩ | hrow
      · exact row_load_saved hpage hs hne hresult hreplaces rfl hpersisted saved.profile
      · exact hrow
    obtain ⟨hcheck, hprofile, hstore⟩ : page.check fs p = .ok report ∧
        saved.profile = page.written fs p ∧ saved.page.store = _ := of_save_eq_ok hresult
    have hfresh : fresh = (Page.new { session with isNew } store').load later (page.written fs p) :=
      congrArg (Page.load _ later) hprofile
    rw [hstore, hfresh] at hrow
    rw [result_validate, hprofile, hfresh]
    have hnagged : ∀ report', ((Page.new { session with isNew } store').load later
        (page.written fs p)).check later (page.written fs p) = .ok report' →
        nagged report' = (nagged report).filter (· = .outer) := fun report' h' =>
      nagged_load_written hpage hs hmedium { session with isNew } rfl hclash hcheck hrow h'
    refine ⟨fun htls => ?_, hnagged⟩
    -- Without TLS inside a tunnel the outer phase is all that the report was about.
    obtain ⟨report', hreport⟩ := check_load_enterprise hpage hs hmedium { session with isNew } rfl
      store' hfs.settlesPaths hkeep htls hcheck
    rw [tunnelsTls_of_enterprise hs] at htls
    obtain ⟨adhoc, hwell⟩ := hpage.wellFormed _ hs
    have houter := AuthMethod.Fits.filter_nagged hwell.fits.2.2 htls (validate_of_check hs hcheck)
    exact ⟨report', hreport, (hnagged report' hreport).trans houter⟩

/-- A chooser that was loaded from nothing. -/
def unset : CaChooser := .ofSetting none .outer homeSession {}

theorem bare_keyRing : Waiver.Bare keyRing where
  no_link := linkless_keyRing.look_ne
  table := .inl rfl
  staging := .inl rfl

/-- The page with the key, and a file for its row. -/
def keyPage : Page := (Page.new homeSession ⟨{}, some "/t"⟩).run enterKey

/-- The page with the key, saved. -/
def keyFiled : Saved := keyPage.save keyRing home

/-- The page with the key, opened again. -/
def keyReopened : Page :=
  (Page.new homeSession ⟨{}, some "/t"⟩).load keyFiled.fs keyFiled.profile

/-- The key is there as before, since the file of the row is a new one. -/
theorem stays_keyFiled : keyFiled.result = .ok [.missingCaCertificate .outer] ∧
    keyFiled.page.store.path = some "/t" ∧ keyRing.Stays keyFiled.fs := by
  have hcheck : keyPage.check keyRing home = .ok [.missingCaCertificate .outer] := by cbv
  have hstore : (keyPage.write keyRing home).2.store = ⟨⟨[("uuid", {})]⟩, some "/t"⟩ := by cbv
  have hread : Waiver.readTable keyRing "/t" = .ok {} :=
    Waiver.readTable_of_not_pathExists (by cbv)
  obtain ⟨fs', hwrite, -⟩ := bare_keyRing.writeTable (Waiver.Table.put {} "uuid" {})
  have hpersist : (keyPage.write keyRing home).2.store.persist keyRing keyPage.session.uuid =
      (.ok (), fs') := by
    have huuid : keyPage.session.uuid = "uuid" := by cbv
    rw [hstore, huuid, Waiver.Store.persist_eq rfl rfl, hread]
    exact hwrite
  have hstays := bare_keyRing.stays_writeTable rfl rfl (Waiver.Table.put {} "uuid" {})
  rw [hwrite] at hstays
  have hsave := save_of_persist hcheck hpersist
  rw [keyFiled, hsave]
  exact ⟨rfl, congrArg _ hstore, hstays⟩

/-- A chooser without a choice writes neither a certificate nor a waiver. The page with the key has
such a chooser, and nags about it again when it is opened again after its row went to a file. -/
theorem nags_again_enterKey :
    (unset.validate keyRing = .ok [.missingCaCertificate .outer] ∧
      ((unset.write keyRing homeSession (.renewed none, {})).1.credentials .outer).caCert = none ∧
      (unset.write keyRing homeSession (.renewed none, {})).2.isWaived "uuid" .outer = false) ∧
    keyFiled.result = .ok [.missingCaCertificate .outer] ∧
    ∃ report', (keyReopened.validate keyFiled.fs keyFiled.profile).1 = .ok report' ∧
      nagged report' = [.outer] := by
  have hunset : unset.validate keyRing = .ok [.missingCaCertificate .outer] := by cbv
  have hnags := (nags_again.1 none .outer homeSession {} [] keyRing (.renewed none, {})
    [.missingCaCertificate .outer] (fun _ hclash => by cases hclash.1) hunset).1
    List.mem_cons_self
  obtain ⟨hresult, hpath, hstays⟩ := stays_keyFiled
  have hchoosers : keyPage.choosers = [.empty .outer] := by cbv
  have htls : keyPage.tunnelsTls = false := by cbv
  have hne : keyPage.choosers ≠ [] := by
    rw [hchoosers]
    exact List.cons_ne_nil _ _
  have hclash : ∀ c ∈ keyPage.choosers, ¬c.Clashes := by
    rw [hchoosers]
    intro c hc hclash
    obtain rfl := List.mem_singleton.1 hc
    cases hclash.1
  have hreplaces : ∀ path, keyPage.store.path = some path → Waiver.Replaces keyRing path := by
    have hfile : keyPage.store.path = some "/t" := by cbv
    rintro path hpath
    obtain rfl := Option.some.inj (hfile.symm.trans hpath)
    exact bare_keyRing.replaces
  -- The same file is behind both pages.
  have hpersisted : Waiver.Store.persisted? ⟨{}, some "/t"⟩ keyFiled.fs "uuid" =
      keyFiled.page.store.persisted? keyFiled.fs "uuid" := by
    simp only [Waiver.Store.persisted?, hpath]
  have hagain := nags_again.2 homeSession ⟨{}, some "/t"⟩ enterKey keyRing keyFiled.fs home false
    ⟨{}, some "/t"⟩ [.missingCaCertificate .outer] tidy_keyRing (.of_stays hstays) rfl hne hclash
    hresult (.inl ⟨hreplaces, hpersisted⟩)
  exact ⟨⟨hunset, hnags⟩, hresult, hagain.1 htls⟩

/-- Credentials whose CA certificate has an empty path. -/
def emptyPath : Profile.Authentication :=
  { Profile.Authentication.renewed none with outer.caCert := some ⟨"", .pem⟩ }

/-- The check of the outer phase is waived. -/
def outerWaived : Waiver.Table := Waiver.Table.decide {} "uuid" .outer true

/-- A chooser that was just loaded with both. -/
def clashing : CaChooser := .ofSetting (some emptyPath) .outer homeSession outerWaived

/-- The page with TLS inside its tunnel, saved. -/
def tunnelSaved : Saved := ((Page.new homeSession .inMemory).run tunnelKey).save keyRing home

/-- The page with TLS inside its tunnel, opened again. -/
def tunnelReopened : Page :=
  (Page.new homeSession tunnelSaved.page.store).load keyRing tunnelSaved.profile

/-- An empty path beside a ticked box is not nagged about, although neither a certificate nor a
waiver is written. The page with TLS inside its tunnel nags about both phases, but once it is
opened again it is not even fit. -/
theorem not_nags_again :
    (clashing.validate keyRing = .ok [] ∧
      ((clashing.write keyRing homeSession (emptyPath, outerWaived)).1.credentials .outer).caCert =
        none ∧
      (clashing.write keyRing homeSession (emptyPath, outerWaived)).2.isWaived "uuid" .outer =
        false) ∧
    tunnelSaved.result = .ok [.missingCaCertificate .outer, .missingCaCertificate .inner] ∧
      tunnelReopened.store.table.row "uuid" = tunnelSaved.page.store.table.row "uuid" ∧
      (tunnelReopened.validate keyRing tunnelSaved.profile).1 =
        .error (.missingField .password) := by
  refine ⟨⟨?_, ?_, ?_⟩, ?_, ?_, ?_⟩
  · cbv
  · cbv
  · cbv
  · cbv
  · cbv
  · cbv

end Page

end ConnectionSecurity
