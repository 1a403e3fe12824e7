import Mathlib
import ConnectionSecurity.Proofs.Page.Run
import ConnectionSecurity.Proofs.Page.Save
import ConnectionSecurity.Proofs.Security.SameSettings

/-!
# Saving a page and loading it again

A page that was saved can be opened again: a fresh page that loads the profile that the save left
shows the same kind of security with the same settings, is fit, and writes the profile as it is
(`reopens`). The file system may change between the two, as long as it keeps the files that pass,
and the connection need not be new any more.

The exception is TLS inside a tunnel. Such a page is saved, but no menu entry stands for the method
inside, so it is not read back; only the kind of security is.
-/

namespace ConnectionSecurity.Page

variable {fs fs' : FileSystem} {session : Session} {p : Profile} {page : Page} {report : Report}
  {adhoc : Bool}

/-- TLS runs inside the tunnel of the page. -/
def tunnelsTls (page : Page) : Bool := page.security.any (·.tunnelsTls)

/-- The same kind of security with the same settings. -/
def SameSettings (fs : FileSystem) (old new : Page) : Prop :=
  new.kind = old.kind ∧
    match old.security, new.security with
    | some s, some s' => s.SameSettings fs s'
    | none, none => True
    | _, _ => False

/-! ## Loading what a save left -/

/-- What a fresh page shows that loads what a well formed page wrote. -/
theorem load_written (fs : FileSystem) (hpage : page.WellFormed session p.isAdhoc)
    (hmedium : p.connection.medium = session.medium) (session' : Session)
    (hmedium' : session'.medium = session.medium) (store : Waiver.Store) (later : FileSystem) :
    let fresh := (Page.new session' store).load later (page.written fs p)
    fresh.session = session' ∧ fresh.kind = page.kind ∧
      (page.tunnelsTls = false → fresh.security =
        page.security.map (·.reopened fs (fresh.store.table.row session'.uuid))) := by
  intro fresh
  cases hs : page.security with
  | none =>
      have hfresh : fresh.kind = SecurityKind.ofProfile (page.written fs p) := rfl
      rw [written_of_none hs, SecurityKind.ofProfile_clearSecurity] at hfresh
      refine ⟨rfl, hfresh.trans (hpage.kind_eq_none hs).symm, fun _ => ?_⟩
      show (Security.ofKind? fresh.kind _ _ _).map _ = none
      rw [hfresh]
      rfl
  | some s =>
      have hwell := hpage.wellFormed s hs
      have hwritten := written_of_some hs fs p
      rw [hpage.session_eq] at hwritten
      have hkind : fresh.kind = page.kind := by
        show SecurityKind.ofProfile (page.written fs p) = _
        rw [hwritten]
        exact Security.ofProfile_write hwell hpage.kind_mem hmedium
      refine ⟨rfl, hkind, fun htls => ?_⟩
      have htls : s.tunnelsTls = false := by simpa [tunnelsTls, hs] using htls
      show (Security.ofKind? fresh.kind (page.written fs p) session' fresh.store.table).map _ = _
      rw [hkind, hwritten]
      exact Security.ofKind?_write hwell htls hmedium'

/-- What the check asks of a profile is not changed by writing into it. -/
theorem same_written (page : Page) (fs : FileSystem) (p : Profile) :
    (page.written fs p).isWireless = p.isWireless ∧
    (page.written fs p).ssid = p.ssid ∧ (page.written fs p).isAdhoc = p.isAdhoc := by
  cases hs : page.security with
  | none =>
      rw [written_of_none hs]
      exact ⟨rfl, p.ssid_clearSecurity, p.isAdhoc_clearSecurity⟩
  | some s =>
      rw [written_of_some hs]
      exact ⟨congrArg (·.medium == .wireless) Security.connection_write, Security.ssid_write,
        Security.isAdhoc_write⟩

variable {session' : Session} {store : Waiver.Store} {later : FileSystem}

/-- What was written is fit for a page if the security of the page is. -/
theorem check_written {fresh : Page} {report' : Report} (h : page.check fs p = .ok report)
    (hadhoc : p.isAdhoc = true → fresh.kind.suitsAdhoc = true)
    (hreport : Reports later fresh.security report') :
    fresh.check later (page.written fs p) = .ok report' := by
  obtain ⟨hssid, -, -⟩ := check_eq_ok.1 h
  obtain ⟨hwireless', hssid', hadhoc'⟩ := page.same_written fs p
  refine check_eq_ok.2 ⟨?_, ?_, hreport⟩
  · rwa [hwireless', hssid']
  · rwa [hadhoc']

/-- A fresh page that loads what a fit page wrote is fit. -/
theorem check_load_written (hpage : page.WellFormed session p.isAdhoc)
    (hmedium : p.connection.medium = session.medium) (session' : Session)
    (hmedium' : session'.medium = session.medium) (store : Waiver.Store)
    (hfs : fs.SettlesPaths) (hkeep : Credential.Keeps fs later) (htls : page.tunnelsTls = false)
    (h : page.check fs p = .ok report) :
    ∃ report', ((Page.new session' store).load later (page.written fs p)).check later
      (page.written fs p) = .ok report' := by
  obtain ⟨-, hkind, hsecurity⟩ :=
    load_written fs hpage hmedium session' hmedium' store later
  obtain ⟨-, hadhoc, hfit⟩ := check_eq_ok.1 h
  -- Whatever the table of waivers says, it is a warning at most.
  have hfresh : ∀ row, ∃ report',
      Reports later (page.security.map (·.reopened fs row)) report' := by
    intro row
    cases hs : page.security with
    | none => exact ⟨[], rfl⟩
    | some s =>
        rw [hs] at hfit
        exact Security.validate_reopened row hfs hkeep hfit
  obtain ⟨report', hreport⟩ := hfresh _
  refine ⟨report', check_written h ?_ ?_⟩
  · rwa [hkind]
  · rw [hsecurity htls]
    exact hreport

/-- A fresh page that loads what a fit page wrote writes the same. -/
theorem written_load_written {isNew : Bool} (hnew : isNew = true → session.isNew = true)
    (hpage : page.WellFormed session p.isAdhoc) (hmedium : p.connection.medium = session.medium)
    (hfs : fs.SettlesPaths) (hkeep : Credential.Keeps fs later) (htls : page.tunnelsTls = false)
    (h : page.check fs p = .ok report) :
    ((Page.new { session with isNew } store).load later (page.written fs p)).written later
      (page.written fs p) = page.written fs p := by
  obtain ⟨hsession, -, hsecurity⟩ := load_written fs hpage hmedium
    { session with isNew } rfl store later
  obtain ⟨-, -, hfit⟩ := check_eq_ok.1 h
  have hsecurity := hsecurity htls
  cases hs : page.security with
  | none =>
      rw [hs] at hsecurity
      rw [written_of_none hsecurity, written_of_none hs, Profile.clearSecurity_clearSecurity]
  | some s =>
      rw [hs] at hsecurity hfit
      have htls : s.tunnelsTls = false := by simpa [tunnelsTls, hs] using htls
      rw [written_of_some hsecurity, hsession]
      have hwritten := written_of_some hs fs p
      rw [hpage.session_eq] at hwritten
      rw [hwritten]
      exact Security.write_reopened hnew hfs hkeep (hpage.wellFormed s hs) htls hfit

/-- A fresh page that loads what a fit page wrote has the same settings. -/
theorem sameSettings_load_written (hpage : page.WellFormed session p.isAdhoc)
    (hmedium : p.connection.medium = session.medium) (hmedium' : session'.medium = session.medium)
    (htls : page.tunnelsTls = false) (h : page.check fs p = .ok report) :
    page.SameSettings fs ((Page.new session' store).load later (page.written fs p)) := by
  obtain ⟨-, hkind, hsecurity⟩ :=
    load_written fs hpage hmedium session' hmedium' store later
  obtain ⟨-, -, hfit⟩ := check_eq_ok.1 h
  refine ⟨hkind, ?_⟩
  rw [hsecurity htls]
  cases hs : page.security with
  | none => trivial
  | some s =>
      rw [hs] at hfit
      exact Security.sameSettings_reopened hfit

/-! ## Every page can be opened again -/

/-- **A page that was saved can be opened again.** Take a page that any run of actions has reached
and a profile that it was saved into. A fresh page that loads this profile, whatever its table of
waivers says and whether or not the connection is still new, shows the same kind of security.
Unless TLS runs inside a tunnel, it also has the same settings, it is fit for the profile, and
saving it leaves the profile as it is. -/
theorem reopens (session : Session) (store : Waiver.Store) (adhoc : Bool) (actions : List Action)
    (hactions : ∀ a ∈ actions, a.Suits session.medium adhoc) (fs later : FileSystem)
    (hfs : fs.SettlesPaths) (hkeep : Credential.Keeps fs later) (p : Profile)
    (hmedium : p.connection.medium = session.medium) (hadhoc : p.isAdhoc = adhoc)
    (isNew : Bool) (hnew : isNew = true → session.isNew = true) (store' : Waiver.Store) :
    let page := (Page.new session store).run actions
    let saved := page.save fs p
    let fresh := (Page.new { session with isNew } store').load later saved.profile
    (∃ report, saved.result = .ok report) →
      fresh.kind = page.kind ∧
      (page.tunnelsTls = false →
        page.SameSettings fs fresh ∧
        (∃ report, (fresh.validate later saved.profile).1 = .ok report) ∧
        (fresh.save later saved.profile).profile = saved.profile) := by
  intro page saved fresh ⟨report, hresult⟩
  -- The run only matters by the invariant, and the save by what it wrote.
  subst hadhoc
  have hpage : page.WellFormed session p.isAdhoc := wellFormed_run hactions store
  obtain ⟨hcheck, hprofile, -⟩ : page.check fs p = .ok report ∧
      saved.profile = page.written fs p ∧ _ := of_save_eq_ok hresult
  have hfresh : fresh = (Page.new { session with isNew } store').load later (page.written fs p) :=
    congrArg (Page.load _ later) hprofile
  rw [hprofile, hfresh]
  obtain ⟨-, hkind, -⟩ :=
    load_written fs hpage hmedium { session with isNew } rfl store' later
  refine ⟨hkind, fun htls => ⟨sameSettings_load_written hpage hmedium rfl htls hcheck, ?_, ?_⟩⟩
  · obtain ⟨report', hreport⟩ := check_load_written hpage hmedium { session with isNew } rfl
      store' hfs hkeep htls hcheck
    refine ⟨report', ?_⟩
    rw [result_validate, hreport]
  · rw [profile_save]
    split
    next => exact written_load_written hnew hpage hmedium hfs hkeep htls hcheck
    next => rfl

/-! ### A page with a key, and one that is not read back -/

/-- A file that is recognised as a container with a key. -/
def keyFile : Bytes := [0x30, 0x82, 0x00, 0x03, 0x02, 0x01, 0x03]

/-- A root directory with a key in it. -/
def keyRing : FileSystem := (FileSystem.blank []).put ["key"] (.file keyFile)

theorem linkless_keyRing : keyRing.Linkless := (FileSystem.linkless_blank []).put ["key"] keyFile

theorem tidy_keyRing : keyRing.Tidy := linkless_keyRing.tidy trivial

/-- A network to connect to. -/
def home : Profile := .newWireless "home" "uuid" "net"

/-- An edit of its connection. -/
def homeSession : Session := ⟨"uuid", false, .stored, true, .wireless⟩

/-- 802.1x by TLS with a key and its password. -/
def enterKey : List Action :=
  [.select .wpaEnterprise home, .edit keyRing (.method (.username "me")),
    .edit keyRing (.method (.privateKey (some "/key"))),
    .edit keyRing (.method (.secret (.text "secret")))]

theorem suits_enterKey : ∀ a ∈ enterKey, a.Suits .wireless false := by
  intro a ha
  simp only [enterKey, List.mem_cons, List.not_mem_nil, or_false] at ha
  rcases ha with rfl | rfl | rfl | rfl
  · rfl
  · trivial
  · trivial
  · trivial

/-- The page with the key is saved and opened again. -/
theorem reopens_key :
    (((Page.new homeSession .inMemory).run enterKey).save keyRing home).result =
        .ok [.missingCaCertificate .outer] ∧
      ((Page.new homeSession .inMemory).run enterKey).tunnelsTls = false ∧
      ((Page.new homeSession .inMemory).run enterKey).SameSettings keyRing
        ((Page.new homeSession .inMemory).load keyRing
          (((Page.new homeSession .inMemory).run enterKey).save keyRing home).profile) := by
  have hresult : (((Page.new homeSession .inMemory).run enterKey).save keyRing home).result =
      .ok [.missingCaCertificate .outer] := by cbv
  have htls : ((Page.new homeSession .inMemory).run enterKey).tunnelsTls = false := by cbv
  have hreopens := reopens homeSession .inMemory false enterKey suits_enterKey keyRing keyRing
    tidy_keyRing.settlesPaths (Credential.Keeps.refl keyRing) home rfl rfl false
    (fun h => by cases h) .inMemory ⟨_, hresult⟩
  exact ⟨hresult, htls, (hreopens.2 htls).1⟩

/-- TLS that was put into a tunnel is there again under the same settings. -/
theorem SameSettings.tunnelsTls {old new : Page} (h : old.SameSettings fs new) :
    new.tunnelsTls = old.tunnelsTls := by
  obtain ⟨-, h⟩ := h
  unfold Page.tunnelsTls
  cases hold : old.security with
  | none =>
      cases hnew : new.security with
      | none => rfl
      | some s' => simp [hold, hnew] at h
  | some s =>
      cases hnew : new.security with
      | none => simp [hold, hnew] at h
      | some s' =>
          rw [hold, hnew] at h
          exact Security.SameSettings.tunnelsTls h

/-- 802.1x by a PEAP tunnel, into which TLS was put. -/
def tunnelKey : List Action :=
  [.select .wpaEnterprise home, .edit keyRing (.selectMethod .peap),
    .edit keyRing (.method (.innerTls .notSaved)),
    .edit keyRing (.method (.inner (.username "me"))),
    .edit keyRing (.method (.inner (.privateKey (some "/key"))))]

/-- The page with TLS inside its tunnel is saved, but another method is read back, which lacks a
password. -/
theorem tunnelKey_is_not_reopened :
    (∀ a ∈ tunnelKey, a.Suits .wireless false) ∧ keyRing.SettlesPaths ∧
      (((Page.new homeSession .inMemory).run tunnelKey).save keyRing home).result =
        .ok [.missingCaCertificate .outer, .missingCaCertificate .inner] ∧
      ¬((Page.new homeSession .inMemory).run tunnelKey).SameSettings keyRing
        ((Page.new homeSession .inMemory).load keyRing
          (((Page.new homeSession .inMemory).run tunnelKey).save keyRing home).profile) ∧
      (((Page.new homeSession .inMemory).load keyRing
          (((Page.new homeSession .inMemory).run tunnelKey).save keyRing home).profile).validate
        keyRing (((Page.new homeSession .inMemory).run tunnelKey).save keyRing home).profile).1 =
        .error (.missingField .password) := by
  have hresult : (((Page.new homeSession .inMemory).run tunnelKey).save keyRing home).result =
      .ok [.missingCaCertificate .outer, .missingCaCertificate .inner] := by cbv
  have htls : ((Page.new homeSession .inMemory).run tunnelKey).tunnelsTls = true := by cbv
  have htls' : ((Page.new homeSession .inMemory).load keyRing
      (((Page.new homeSession .inMemory).run tunnelKey).save keyRing home).profile).tunnelsTls =
      false := by cbv
  refine ⟨?_, tidy_keyRing.settlesPaths, hresult, fun h => ?_, by cbv⟩
  · intro a ha
    simp only [tunnelKey, List.mem_cons, List.not_mem_nil, or_false] at ha
    rcases ha with rfl | rfl | rfl | rfl | rfl
    · rfl
    · trivial
    · trivial
    · trivial
    · trivial
  · have hsame := h.tunnelsTls
    rw [htls, htls'] at hsame
    cases hsame

end ConnectionSecurity.Page
