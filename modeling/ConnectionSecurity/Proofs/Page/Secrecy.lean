import Mathlib
import ConnectionSecurity.Proofs.Page.Run
import ConnectionSecurity.Proofs.Page.Save
import ConnectionSecurity.Proofs.Security.Secrecy

/-!
# Secrets that are not saved do not reach the profile

`blotted` takes the texts of secrets out of pages, profiles and actions. What an action makes of a
page, the texts apart, depends on nothing but the rest of both (`blotted_act`), so the same holds
of a run (`blotted_run`). If the policy at the end keeps no text, a save depends on the rest alone
(`save_blotted`). Two runs that differ in nothing but texts hence save the same profile, and no
secret is in it (`save_of_blotted_eq`).
-/

namespace ConnectionSecurity.Page

variable {fs : FileSystem} {p q : Profile} {page page' : Page}

/-! ## Without the texts -/

/-- How far a page has come, as far as a choice from the menu asks. -/
def coarse : PageState → PageState
  | .uninitialized => .uninitialized
  | _ => .configured

/-- The page as it looks without the texts of its secrets. Whether it was found fit depends on
them. -/
def blotted (page : Page) : Page :=
  { page with security := page.security.map (·.blotted), state := coarse page.state }

/-- The action without the texts that it types or loads. -/
def Action.blotted : Action → Action
  | load fs p => load fs p.blotted
  | select kind p => select kind p.blotted
  | edit fs e => edit fs e.blotted
  | loadSecrets p => loadSecrets p.blotted
  | validate fs p => validate fs p.blotted
  | save fs p => save fs p.blotted
  | a => a

/-- The action is a save. -/
def Action.isSave : Action → Bool
  | save .. => true
  | _ => false

theorem Action.isSave_blotted (a : Action) : a.blotted.isSave = a.isSave := by
  cases a <;> rfl

theorem coarse_eq_uninitialized {state : PageState} :
    coarse state = .uninitialized ↔ state = .uninitialized := by
  cases state <;> simp [coarse]

theorem blotted_blotted (page : Page) : page.blotted.blotted = page.blotted := by
  obtain ⟨session, store, kind, security, state⟩ := page
  cases security <;> cases state <;> simp [blotted, coarse]

/-! ## One action -/

/-- Reading the stored texts or not makes no difference to the rest. -/
theorem blotted_loadSecrets_eq (s : Security) (p : Profile) :
    (s.loadSecrets p).blotted = (s.loadSecrets p.blotted).blotted := by
  rw [Security.blotted_loadSecrets s p, Security.blotted_loadSecrets s p.blotted,
    Profile.blotted_blotted]

theorem blotted_load (page : Page) (fs : FileSystem) (p : Profile) :
    (page.load fs p).blotted = (page.blotted.load fs p.blotted).blotted := by
  have hsecurity : ∀ table, ((Security.ofKind? (SecurityKind.ofProfile p) p page.session table).map
      (·.loadSecrets p)).map Security.blotted =
      ((Security.ofKind? (SecurityKind.ofProfile p.blotted) p.blotted page.session table).map
        (·.loadSecrets p.blotted)).map Security.blotted := by
    intro table
    rw [Security.ofProfile_blotted, Security.ofKind?_blotted, Option.map_map, Option.map_map]
    exact congrArg (Option.map · _) (funext fun s => blotted_loadSecrets_eq s p)
  unfold Page.load blotted
  simp only [Security.ofProfile_blotted] at hsecurity ⊢
  rw [hsecurity]

theorem blotted_select (page : Page) (kind : SecurityKind) (p : Profile) :
    (page.act (.select kind p)).blotted = (page.blotted.act (.select kind p.blotted)).blotted := by
  have hstate : page.blotted.state ≠ PageState.uninitialized ↔
      page.state ≠ PageState.uninitialized := not_congr coarse_eq_uninitialized
  have hmenu : page.blotted.menu = page.menu := rfl
  have hkind : page.blotted.kind = page.kind := rfl
  rw [act_select, act_select, Profile.clearSecurity_blotted, hmenu, hkind]
  simp only [hstate]
  split
  next => exact page.blotted_blotted.symm
  next => rfl

theorem blotted_edit (page : Page) (fs : FileSystem) (e : Security.Edit) :
    (page.edit fs e).2.blotted = (page.blotted.edit fs e.blotted).2.blotted := by
  obtain ⟨session, store, kind, security, state⟩ := page
  cases security with
  | none => exact (blotted_blotted _).symm
  | some s =>
      exact congrArg (fun s : Security => (⟨session, store, kind, some s, .configured⟩ : Page))
        (s.blotted_edit e)

theorem blotted_touch (page : Page) : page.touch.blotted = page.blotted.touch.blotted := by
  obtain ⟨session, store, kind, security, state⟩ := page
  cases security with
  | none => exact (blotted_blotted _).symm
  | some s =>
      exact congrArg (fun s : Security => (⟨session, store, kind, some s, .configured⟩ : Page))
        Security.blotted_blotted.symm

theorem blotted_validate (page : Page) (fs : FileSystem) (p : Profile) :
    (page.validate fs p).2.blotted = (page.blotted.validate fs p.blotted).2.blotted := by
  have hvalidate : ∀ (page : Page) p,
      (page.validate fs p).2.blotted = { page.blotted with state := .configured } := by
    intro page p
    unfold Page.validate
    cases page.check fs p <;> rfl
  rw [hvalidate, hvalidate, page.blotted_blotted]

/-- **What an action makes of a page, the texts of secrets apart, depends on nothing but the rest of
both.** -/
theorem blotted_act (page : Page) {a : Action} (ha : a.isSave = false) :
    (page.act a).blotted = (page.blotted.act a.blotted).blotted := by
  cases a with
  | load fs p => exact page.blotted_load fs p
  | select kind p => exact page.blotted_select kind p
  | touch => exact page.blotted_touch
  | edit fs e => exact page.blotted_edit fs e
  | loadSecrets p =>
      obtain ⟨session, store, kind, security, state⟩ := page
      cases security with
      | none => exact (blotted_blotted _).symm
      | some s =>
          exact congrArg (fun s : Security => (⟨session, store, kind, some s, .configured⟩ : Page))
            (s.blotted_loadSecrets p)
  | validate fs p => exact page.blotted_validate fs p
  | save fs p => cases ha
  | waivers table =>
      exact congrArg (fun page : Page => { page with store := { page.store with table } })
        page.blotted_blotted.symm

/-- Two runs that differ in nothing but texts end at pages that differ in nothing but texts. -/
theorem blotted_run {actions actions' : List Action} (hpage : page.blotted = page'.blotted)
    (hactions : actions.map Action.blotted = actions'.map Action.blotted)
    (hsave : ∀ a ∈ actions, a.isSave = false) :
    (page.run actions).blotted = (page'.run actions').blotted := by
  induction actions generalizing page page' actions' with
  | nil =>
      obtain rfl := List.map_eq_nil_iff.1 hactions.symm
      exact hpage
  | cons a rest ih =>
      cases actions' with
      | nil => cases hactions
      | cons a' rest' =>
          obtain ⟨ha, hrest⟩ := List.cons.inj hactions
          have hsave' : a'.isSave = false := by
            rw [← Action.isSave_blotted, ← ha, Action.isSave_blotted]
            exact hsave a List.mem_cons_self
          have hact : (page.act a).blotted = (page'.act a').blotted := by
            rw [page.blotted_act (hsave a List.mem_cons_self), page'.blotted_act hsave', hpage, ha]
          show ((page.act a).run rest).blotted = ((page'.act a').run rest').blotted
          exact ih hact hrest fun b hb => hsave b (List.mem_cons_of_mem a hb)

/-! ## The save at the end -/

/-- If the policy keeps no text, the check does not depend on texts. -/
theorem check_blotted {s : Security} (hs : page.security = some s)
    (h : s.secret.policy.keepsText = false) (fs : FileSystem) (p : Profile) :
    page.check fs p = page.blotted.check fs p.blotted := by
  obtain ⟨session, store, kind, security, state⟩ := page
  obtain rfl : security = some s := hs
  show (if p.isWireless && p.ssid.isNone then _ else
    if p.isAdhoc && !kind.suitsAdhoc then _ else s.validate fs) = _
  rw [Security.validate_blotted h]
  rfl

/-- If the policy keeps no text, what is written does not depend on texts. -/
theorem write_blotted {s : Security} (hs : page.security = some s)
    (h : s.secret.policy.keepsText = false) (fs : FileSystem) (p : Profile) :
    page.written fs p = page.blotted.written fs p.blotted ∧
      (page.write fs p).2.store = (page.blotted.write fs p.blotted).2.store := by
  obtain ⟨session, store, kind, security, state⟩ := page
  obtain rfl : security = some s := hs
  have hwrite : s.write fs session p store.table =
      s.blotted.write fs session p.blotted store.table :=
    Security.write_blotted h p
  constructor
  · show (s.write fs session p store.table).1 = (s.blotted.write fs session p.blotted store.table).1
    rw [hwrite]
  · show { store with table := (s.write fs session p store.table).2 } =
      { store with table := (s.blotted.write fs session p.blotted store.table).2 }
    rw [hwrite]

/-- If the policy keeps no text, the outcome of a save does not depend on texts, and neither does
the profile unless there is a fault. -/
theorem save_blotted {s : Security} (hs : page.security = some s)
    (h : s.secret.policy.keepsText = false) (fs : FileSystem) (p : Profile) :
    (page.save fs p).result = (page.blotted.save fs p.blotted).result ∧
      ∀ report, (page.save fs p).result = .ok report →
        (page.save fs p).profile = (page.blotted.save fs p.blotted).profile := by
  have hcheck := check_blotted hs h fs p
  obtain ⟨hwritten, hstore⟩ := write_blotted hs h fs p
  refine ⟨result_save_congr hcheck hstore rfl, fun report hresult => ?_⟩
  obtain ⟨hfit, hprofile, -⟩ := of_save_eq_ok hresult
  rw [hprofile, profile_save, ← hcheck, hfit]
  exact hwritten

/-! ## No text in the profile -/

/-- **A secret that is not saved does not reach the profile.** Take two runs whose actions, and
two profiles, that differ in nothing but the texts of secrets. If the policy at the end of the
first run is not to save the secret, the save that follows has the same outcome after both; and if
it succeeds, it leaves the same profile, in which no secret is set. -/
theorem save_of_blotted_eq (session : Session) (store : Waiver.Store)
    (actions actions' : List Action)
    (hactions : actions.map Action.blotted = actions'.map Action.blotted)
    (hsave : ∀ a ∈ actions, a.isSave = false) (fs : FileSystem) (p q : Profile)
    (hp : p.blotted = q.blotted) :
    let page := (Page.new session store).run actions
    let saved := page.save fs p
    let saved' := ((Page.new session store).run actions').save fs q
    ∀ s, page.security = some s → s.secret.policy = .notSaved →
      saved.result = saved'.result ∧
      ∀ report, saved.result = .ok report →
        saved.profile = saved'.profile ∧ saved.profile.NoSecrets := by
  intro page saved saved' s hs hpolicy
  have hkeeps : s.secret.policy.keepsText = false := by
    rw [hpolicy]
    rfl
  have hpages : page.blotted = ((Page.new session store).run actions').blotted :=
    blotted_run rfl hactions hsave
  -- The policy is no secret, so the other run ends with it too.
  obtain ⟨s', hs', hsame⟩ : ∃ s', ((Page.new session store).run actions').security = some s' ∧
      s.blotted = s'.blotted := by
    have hsecurity := congrArg Page.security hpages
    obtain ⟨s', hs', hsame⟩ := Option.map_eq_some_iff.1
      (hsecurity.symm.trans (congrArg (·.map Security.blotted) hs))
    exact ⟨s', hs', hsame.symm⟩
  have hkeeps' : s'.secret.policy.keepsText = false := by
    rw [← Security.policy_blotted, ← hsame, Security.policy_blotted]
    exact hkeeps
  obtain ⟨hresult, hprofile⟩ := save_blotted hs hkeeps fs p
  obtain ⟨hresult', hprofile'⟩ := save_blotted hs' hkeeps' fs q
  rw [hpages, hp] at hresult hprofile
  have houtcome : saved.result = saved'.result := hresult.trans hresult'.symm
  refine ⟨houtcome, fun report hreport => ⟨?_, ?_⟩⟩
  · exact (hprofile report hreport).trans (hprofile' report (houtcome ▸ hreport)).symm
  · show (page.save fs p).profile.NoSecrets
    obtain ⟨-, hprofile, -⟩ := of_save_eq_ok hreport
    rw [hprofile, written_of_some hs]
    exact Security.noSecrets_write hkeeps p

/-- An edit of a wireless connection. -/
def officeSession : Session := ⟨"uuid", false, .stored, true, .wireless⟩

/-- The network of the connection, with a shared key in its profile. -/
def office (psk : String) : Profile :=
  (Profile.newWireless "office" "uuid" "net").secureWith { keyMgmt := "wpa-psk", psk := some psk }

/-- Load the key, type another one, and choose not to save it. -/
def enterPsk (stored typed : String) : List Action :=
  [.load (.blank []) (office stored), .edit (.blank []) (.secret (.text typed)),
    .edit (.blank []) (.secret (.policy .notSaved))]

/-- Whichever key is stored and whichever is typed, the same profile without a key is saved. -/
theorem save_enterPsk :
    let page := (Page.new officeSession .inMemory).run (enterPsk "stored key" "typed key")
    let page' := (Page.new officeSession .inMemory).run (enterPsk "another key" "")
    (page.save (.blank []) (office "stored key")).result = .ok [] ∧
      (page.save (.blank []) (office "stored key")).profile =
        (page'.save (.blank []) (office "another key")).profile ∧
      (page.save (.blank []) (office "stored key")).profile.NoSecrets := by
  intro page page'
  have hsecurity : page.security = some (.personal ⟨false, .empty .notSaved⟩) := by cbv
  have hresult : (page.save (.blank []) (office "stored key")).result = .ok [] := by cbv
  have hsame := save_of_blotted_eq officeSession .inMemory (enterPsk "stored key" "typed key")
    (enterPsk "another key" "") rfl (by decide) (.blank []) (office "stored key")
    (office "another key") rfl _ hsecurity rfl
  exact ⟨hresult, hsame.2 [] hresult⟩

end ConnectionSecurity.Page
