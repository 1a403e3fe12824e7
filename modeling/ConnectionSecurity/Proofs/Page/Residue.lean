import ConnectionSecurity.Proofs.Page.Order
import ConnectionSecurity.Proofs.Security.Reopen
import ConnectionSecurity.Proofs.Security.Residue

/-!
# Saving leaves nothing of what was there before

A save is the same for any two profiles that agree on what the page takes over: the connection, the
network, and flags of secrets. It goes the same way, and if it succeeds, it leaves the same profile.
The connection, and the name and the mode of the network, stay as they are (`leaves_no_residue`).
-/

namespace ConnectionSecurity.Page

variable {page : Page} {session : Session} {fs : FileSystem} {p q : Profile} {report : Report}

/-! ## Two profiles -/

theorem check_congr (h : Profile.AgreeFor page.security p q) (fs : FileSystem) :
    page.check fs p = page.check fs q := by
  have hwireless : p.isWireless = q.isWireless := by rw [Profile.isWireless, h.connection]; rfl
  unfold Page.check
  rw [hwireless, Profile.ssid_congr h.wireless, Profile.isAdhoc_congr h.wireless]

theorem write_congr (h : Profile.AgreeFor page.security p q) (fs : FileSystem) :
    page.write fs p = page.write fs q := by
  unfold Page.write
  cases hs : page.security with
  | none => simp only [Profile.clearSecurity_congr h.connection h.wireless]
  | some s =>
      rw [hs] at h
      simp only [Security.write_congr h]

/-- Saving into profiles that agree on what the page takes over ends in the same way. -/
theorem save_congr (h : Profile.AgreeFor page.security p q) (fs : FileSystem) :
    (page.save fs p).result = (page.save fs q).result ∧
      (page.save fs p).page = (page.save fs q).page ∧
      (page.save fs p).fs = (page.save fs q).fs ∧
      ((∃ report, (page.save fs p).result = .ok report) →
        (page.save fs p).profile = (page.save fs q).profile) := by
  have hwrite := write_congr h fs
  unfold Page.save Page.validate
  rw [check_congr h fs]
  cases page.check fs q with
  | error fault => exact ⟨rfl, rfl, rfl, fun ⟨_, hok⟩ => by cases hok⟩
  | ok report =>
      simp only [write_state, written, hwrite]
      exact ⟨trivial, trivial, trivial, fun _ => trivial⟩

/-! ## What stays -/

theorem connection_written (page : Page) (fs : FileSystem) (p : Profile) :
    (page.written fs p).connection = p.connection := by
  cases hs : page.security with
  | none => rw [written_of_none hs, Profile.connection_clearSecurity]
  | some s => rw [written_of_some hs, Security.connection_write]

/-- A page for a wire has 802.1x behind it, or nothing. -/
theorem Coherent.exists_wired (h : page.Coherent session) (hplaced : page.Placed session)
    (hmedium : session.medium = .wired) {s : Security} (hs : page.security = some s) :
    ∃ w, s = .enterprise w ∧ w.medium = .wired := by
  obtain ⟨adhoc, hwell⟩ := h.wellFormed s hs
  have hmem := hplaced.kind_mem
  rw [← hwell.kind, hmedium] at hmem
  cases s with
  | enterprise w => exact ⟨w, rfl, hwell.fits.1.trans hmedium⟩
  | personal w => cases hsae : w.sae <;> simp [Security.kind, hsae, SecurityKind.menu] at hmem
  | _ => simp [Security.kind, SecurityKind.menu] at hmem

/-- A fit page changes neither the name nor the mode of the network. -/
theorem network_written (h : page.Coherent session) (hplaced : page.Placed session)
    (hmedium : p.connection.medium = session.medium) (hcheck : page.check fs p = .ok report) :
    (page.written fs p).wireless.map (·.ssid) = p.wireless.map (·.ssid) ∧
      (page.written fs p).wireless.map (·.mode) = p.wireless.map (·.mode) := by
  cases hs : page.security with
  | none =>
      rw [written_of_none hs]
      exact p.network_clearSecurity
  | some s =>
      rw [written_of_some hs]
      apply Security.network_write
      cases hm : session.medium with
      -- A profile for a wire has no network to keep; of a wireless one the check saw the name.
      | wired => exact .inr (h.exists_wired hplaced hm hs)
      | wireless =>
          obtain ⟨hnamed, -⟩ := check_eq_ok.1 hcheck
          have hwireless : p.isWireless = true := by
            rw [Profile.isWireless, hmedium, hm]
            rfl
          refine .inl fun hnone => hnamed hwireless ?_
          rw [Profile.ssid, hnone]
          rfl

/-- The profile stands for the kind of the page that was written into it. -/
theorem ofProfile_written (h : page.Coherent session) (hplaced : page.Placed session)
    (hmedium : p.connection.medium = session.medium) :
    SecurityKind.ofProfile (page.written fs p) = page.kind := by
  cases hs : page.security with
  | none =>
      rw [written_of_none hs, hplaced.kind_eq_none hs]
      exact SecurityKind.ofProfile_clearSecurity p
  | some s =>
      obtain ⟨adhoc, hwell⟩ := h.wellFormed s hs
      rw [written_of_some hs, hplaced.session_eq]
      exact Security.ofProfile_write hwell hplaced.kind_mem hmedium

/-! ## Every run -/

/-- **Saving leaves no residue.** Take a page that any run of actions has reached whose loads are of
the medium of the page. Saving it into two profiles that agree on what it takes over ends in the same
way, and if it succeeds, it leaves equal profiles. Saving into a profile of the medium changes
neither its connection nor the name and the mode of its network, and if it succeeds, the profile
stands for the kind of security that the page shows. -/
theorem leaves_no_residue (session : Session) (store : Waiver.Store) (actions : List Action)
    (hactions : ∀ a ∈ actions, a.OfMedium session.medium) (fs : FileSystem) :
    let page := (Page.new session store).run actions
    (∀ p q, Profile.AgreeFor page.security p q →
      (page.save fs p).result = (page.save fs q).result ∧
      (page.save fs p).page = (page.save fs q).page ∧
      (page.save fs p).fs = (page.save fs q).fs ∧
      ((∃ report, (page.save fs p).result = .ok report) →
        (page.save fs p).profile = (page.save fs q).profile)) ∧
    ∀ p, p.connection.medium = session.medium →
      let saved := page.save fs p
      saved.profile.connection = p.connection ∧
      saved.profile.wireless.map (·.ssid) = p.wireless.map (·.ssid) ∧
      saved.profile.wireless.map (·.mode) = p.wireless.map (·.mode) ∧
      ((∃ report, saved.result = .ok report) →
        SecurityKind.ofProfile saved.profile = page.kind) := by
  intro page
  have hcoherent : page.Coherent session := coherent_run session store actions
  have hplaced : page.Placed session := placed_run hactions store
  refine ⟨fun p q h => save_congr h fs, fun p hmedium => ?_⟩
  intro saved
  have hprofile : saved.profile = _ := page.profile_save fs p
  cases hcheck : page.check fs p with
  | error fault =>
      rw [hcheck] at hprofile
      have hsame : saved.profile = p := hprofile
      refine ⟨by rw [hsame], by rw [hsame], by rw [hsame], fun ⟨report, hok⟩ => ?_⟩
      obtain ⟨hok, -⟩ := of_save_eq_ok hok
      cases hcheck.symm.trans hok
  | ok report =>
      rw [hcheck] at hprofile
      have hwritten : saved.profile = page.written fs p := hprofile
      obtain ⟨hssid, hmode⟩ := network_written hcoherent hplaced hmedium hcheck
      rw [hwritten]
      exact ⟨page.connection_written fs p, hssid, hmode, fun _ =>
        ofProfile_written hcoherent hplaced hmedium⟩

/-- The network with the shared key, and what methods of 802.1x have left of theirs. -/
def leftover : Profile :=
  { keyed with
    authentication := some
      { eap := ["peap"], identity := some "me", password := some "old", innerAuth := some "gtc" } }

/-- A page on which a new shared key was entered. -/
def enterPhrase : List Action :=
  [.load (.blank []) leftover, .edit (.blank []) (.secret (.text "another phrase"))]

/-- The shared key is saved in the same way where methods of 802.1x have left something. -/
theorem leaves_no_residue_leftover :
    let session := Session.forProfile keyed {} false
    let page := (Page.new session .inMemory).run enterPhrase
    (page.save (.blank []) leftover).result = .ok [] ∧
      (page.save (.blank []) leftover).profile = (page.save (.blank []) keyed).profile ∧
      SecurityKind.ofProfile (page.save (.blank []) leftover).profile = .wpaPsk := by
  intro session page
  have hactions : ∀ a ∈ enterPhrase, a.OfMedium .wireless := by
    simp [enterPhrase, Action.OfMedium, leftover, keyed, Profile.newWireless]
  have hagree : Profile.AgreeFor page.security leftover keyed :=
    ⟨rfl, rfl, fun s _ => by cases s <;> rfl, rfl, rfl, rfl, rfl⟩
  have hresult : (page.save (.blank []) leftover).result = .ok [] := by cbv
  obtain ⟨hsame, hkept⟩ := leaves_no_residue session .inMemory enterPhrase hactions (.blank [])
  obtain ⟨-, -, -, hprofile⟩ := hsame leftover keyed hagree
  obtain ⟨-, -, -, hkind⟩ := hkept leftover rfl
  exact ⟨hresult, hprofile ⟨[], hresult⟩, hkind ⟨[], hresult⟩⟩

end ConnectionSecurity.Page
