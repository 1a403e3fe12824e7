import ConnectionSecurity.Proofs.Page.Order
import ConnectionSecurity.Proofs.Page.Reopen

/-!
# A page that passed stays fit

A page is validated or saved only because a check of it passed (`Passes`), and since then nothing
touched what was checked. So the check passes again, of the profile that the first one left and with
the same report, for as long as the files do that it looked at (`Passes.check_again`). This holds
after every run (`stays_valid`). The table of waivers may change meanwhile, by the save itself or
from elsewhere: a check does not look at it.

Whatever takes the security out, loads a profile or chooses another entry of the menu takes the page
back to where it is not checked (`state_act_of_unsettles`).
-/

namespace ConnectionSecurity.Page

variable {fs later : FileSystem} {p left : Profile} {page page' : Page} {report : Report}
  {a : Action}

/-! ## Checks that pass -/

/-- The page passes when an action checks it: the profile that is left, and what is reported. -/
inductive Passes (page : Page) (fs : FileSystem) : Action → Profile → Report → Prop where
  | validated (p : Profile) (report : Report) (h : (page.validate fs p).1 = .ok report) :
      Passes page fs (.validate fs p) p report
  | saved (p : Profile) (report : Report) (h : (page.save fs p).result = .ok report) :
      Passes page fs (.save fs p) (page.save fs p).profile report
  /-- The profile was written, but the waivers of the connection could not be. -/
  | unfiled (p : Profile) (report : Report) (e : Waiver.StoreError)
      (h : (page.save fs p).result = .error (.waiver e))
      (hreport : (page.validate fs p).1 = .ok report) :
      Passes page fs (.save fs p) (page.save fs p).profile report

/-- A page is validated or saved after a check only if it passes. -/
theorem exists_passes (page : Page) (ha : a.checks = true)
    (h : (page.act a).state ∈ [PageState.validated, .saved]) :
    ∃ fs left report, page.Passes fs a left report := by
  cases a with
  | validate fs p =>
      have h : (page.validate fs p).2.state ∈ [PageState.validated, .saved] := h
      cases hc : page.check fs p with
      | ok report => exact ⟨fs, p, report, .validated p report ((result_validate ..).trans hc)⟩
      | error fault => simp [Page.validate, hc] at h
  | save fs p =>
      have h : (page.save fs p).page.state ∈ [PageState.validated, .saved] := h
      rcases page.save_cases fs p with ⟨fault, -, hs⟩ | ⟨report, fs', hc, ⟨e, -, hs⟩ | ⟨-, hs⟩⟩
      · simp [hs] at h
      · exact ⟨fs, _, report,
          .unfiled p report e (congrArg Saved.result hs) ((result_validate ..).trans hc)⟩
      · exact ⟨fs, _, report, .saved p report (congrArg Saved.result hs)⟩
  | _ => cases ha

/-- A check that passes found the page fit, and what is left asks no more of it. -/
theorem Passes.check_eq (h : page.Passes fs a left report) :
    ∃ p, page.check fs p = .ok report ∧ (left = p ∨ left = page.written fs p) := by
  cases h with
  | validated p _ h => exact ⟨left, (result_validate ..).symm.trans h, .inl rfl⟩
  | saved p _ h =>
      obtain ⟨hc, hprofile, -⟩ := of_save_eq_ok h
      exact ⟨p, hc, .inr hprofile⟩
  | unfiled p _ e h hreport =>
      have hc : page.check fs p = .ok report := (result_validate ..).symm.trans hreport
      refine ⟨p, hc, .inr ?_⟩
      rw [profile_save, hc]
      rfl

/-! ## Checking again -/

/-- What is reported of a security is the same as long as the files stay that pass. -/
theorem Reports.keeps {security : Option Security} (hkeep : Credential.Keeps fs later)
    (h : Reports fs security report) : Reports later security report := by
  cases security with
  | none => exact h
  | some s => exact Security.validate_keeps hkeep h

/-- **A check that passed passes again**, of what it left and with the same report, as long as the
page has the same security and the files stay that pass. -/
theorem Passes.check_again (h : page.Passes fs a left report) (hkind : page'.kind = page.kind)
    (hsecurity : page'.security = page.security) (hkeep : Credential.Keeps fs later) :
    page'.check later left = .ok report := by
  obtain ⟨p, hc, hleft⟩ := h.check_eq
  obtain ⟨hssid, hadhoc, hreports⟩ := check_eq_ok.1 hc
  rw [← hkind] at hadhoc
  rw [← hsecurity] at hreports
  rcases hleft with rfl | rfl
  · exact check_eq_ok.2 ⟨hssid, hadhoc, hreports.keeps hkeep⟩
  · exact check_written hc hadhoc (hreports.keeps hkeep)

/-! ## What does not check a page -/

/-- The action takes the security of the page out, loads a profile, or chooses another entry that
the menu has. -/
def Action.Unsettles (page : Page) : Action → Prop
  | load .. => True
  | select kind _ => kind ∈ page.menu ∧ kind ≠ page.kind
  | touch => page.security ≠ none
  | edit .. => page.security ≠ none
  | loadSecrets _ => page.security ≠ none
  | _ => False

theorem state_touch_of_ne_none (h : page.security ≠ none) : page.touch.state = .editing := by
  rw [Page.touch, if_pos (Option.isSome_iff_ne_none.2 h)]

/-- Such an action leaves the page to be checked anew. -/
theorem state_act_of_unsettles (ha : a.Unsettles page) :
    (page.act a).state ∈ [PageState.configured, .editing] := by
  have htouch : page.security ≠ none →
      page.touch.state ∈ [PageState.configured, .editing] := fun h => by
    simp [state_touch_of_ne_none h]
  cases a with
  | load fs p => exact List.mem_cons_self
  | select kind p =>
      obtain ⟨hmenu, hkind⟩ := ha
      rw [act_select, if_neg]
      · exact List.mem_cons_self
      · rintro (hnot | ⟨hsame, -⟩)
        · rw [List.contains_iff_mem.2 hmenu] at hnot
          cases hnot
        · exact hkind hsame
  | touch => exact htouch ha
  | edit fs e =>
      show (page.edit fs e).2.state ∈ _
      obtain ⟨s, hs⟩ := Option.ne_none_iff_exists'.1 ha
      simp [Page.edit, hs]
  | loadSecrets p => exact htouch ha
  | _ => exact ha.elim

/-- An action that does not check a page and leaves it validated or saved does nothing to what was
checked. -/
theorem same_act_of_settled (ha : a.checks = false)
    (h : (page.act a).state ∈ [PageState.validated, .saved]) :
    (page.act a).state = page.state ∧ (page.act a).kind = page.kind ∧
      (page.act a).security = page.security := by
  have hunsettled : ¬a.Unsettles page := by
    intro hunsettles
    have hstate := state_act_of_unsettles hunsettles
    simp only [List.mem_cons, List.not_mem_nil, or_false] at h hstate
    rcases h with h | h <;> rw [h] at hstate <;> simp at hstate
  have hsame : ∀ {after : Page}, after = page →
      after.state = page.state ∧ after.kind = page.kind ∧ after.security = page.security := by
    rintro after rfl
    exact ⟨rfl, rfl, rfl⟩
  cases a with
  | load fs p => exact absurd trivial hunsettled
  | select kind p =>
      rw [act_select] at h ⊢
      split at h
      next hkept => exact hsame (if_pos hkept)
      next => simp at h
  | touch => exact hsame (touch_of_none (not_not.1 hunsettled))
  | edit fs e => exact hsame (congrArg Prod.snd (edit_of_none (not_not.1 hunsettled) fs e))
  | loadSecrets p => exact hsame (loadSecrets_of_none (not_not.1 hunsettled) p)
  | validate fs p => cases ha
  | save fs p => cases ha
  | waivers table => exact ⟨rfl, rfl, rfl⟩

/-! ## Every run -/

/-- A run that leaves a page validated or saved has a last check, which passed, and nothing behind
it touched the security. -/
theorem exists_last_check {start : Page}
    (hstart : start.state ∉ [PageState.validated, .saved]) (actions : List Action)
    (h : (start.run actions).state ∈ [PageState.validated, .saved]) :
    ∃ before a after fs left report, actions = before ++ a :: after ∧
      (∀ b ∈ after, b.checks = false) ∧ (start.run before).Passes fs a left report ∧
      (start.run actions).kind = (start.run before).kind ∧
      (start.run actions).security = (start.run before).security := by
  -- From the end of the run: its last action is the check, or changes nothing.
  induction actions using List.reverseRecOn with
  | nil => exact absurd h hstart
  | append_singleton actions b ih =>
      rw [run_concat] at h ⊢
      cases hchecks : b.checks with
      | true =>
          obtain ⟨fs, left, report, hpasses⟩ := (start.run actions).exists_passes hchecks h
          refine ⟨actions, b, [], fs, left, report, rfl, by simp, hpasses, ?_⟩
          cases b with
          | validate fs p => exact (same_validate fs p).2
          | save fs p => exact (same_save fs p).2
          | _ => cases hchecks
      | false =>
          obtain ⟨hstate, hkind, hsecurity⟩ := same_act_of_settled hchecks h
          rw [hstate] at h
          obtain ⟨before, a, after, fs, left, report, rfl, hafter, hpasses, hkind', hsecurity'⟩ :=
            ih h
          refine ⟨before, a, after ++ [b], fs, left, report, by simp, ?_, hpasses,
            hkind.trans hkind', hsecurity.trans hsecurity'⟩
          intro c hc
          rcases List.mem_append.1 hc with hc | hc
          · exact hafter c hc
          · obtain rfl := List.mem_singleton.1 hc
            exact hchecks

/-- **A page that was validated stays valid until it is edited.** After any run from an empty page,
if the page is validated or saved, there was a last validation or save, and it passed. Validating
the page again, with the profile as this left it, succeeds with the same report, on the same file
system and on any other on which the files pass that passed then. And whatever takes the security
out for editing, loads a profile or chooses another entry of the menu leaves the page neither
validated nor saved. -/
theorem stays_valid (session : Session) (store : Waiver.Store) (actions : List Action) :
    let page := (Page.new session store).run actions
    (page.state ∈ [PageState.validated, .saved] →
      ∃ before a after fs left report, actions = before ++ a :: after ∧
        (∀ b ∈ after, b.checks = false) ∧
        ((Page.new session store).run before).Passes fs a left report ∧
        ∀ later, Credential.Keeps fs later →
          page.validate later left = (.ok report, { page with state := .validated })) ∧
    ∀ a, a.Unsettles page → (page.act a).state ∈ [PageState.configured, .editing] := by
  intro page
  refine ⟨fun h => ?_, fun a ha => state_act_of_unsettles ha⟩
  have hnew : (Page.new session store).state ∉ [PageState.validated, .saved] := by
    show PageState.uninitialized ∉ _
    decide
  obtain ⟨before, a, after, fs, left, report, hactions, hafter, hpasses, hkind, hsecurity⟩ :=
    exists_last_check hnew actions h
  refine ⟨before, a, after, fs, left, report, hactions, hafter, hpasses, fun later hkeep => ?_⟩
  rw [Page.validate, hpasses.check_again hkind hsecurity hkeep]

/-- The page with the key is saved and validated again, with the warning of the save, until the
security is taken out. -/
theorem stays_valid_enterKey :
    let page := (Page.new homeSession .inMemory).run (enterKey ++ [.save keyRing home])
    let left := (((Page.new homeSession .inMemory).run enterKey).save keyRing home).profile
    page.state = .saved ∧
      page.validate keyRing left =
        (.ok [.missingCaCertificate .outer], { page with state := .validated }) ∧
      page.touch.state ∈ [PageState.configured, .editing] := by
  intro page left
  have hresult : (((Page.new homeSession .inMemory).run enterKey).save keyRing home).result =
      .ok [.missingCaCertificate .outer] := by cbv
  have hpage : page = (((Page.new homeSession .inMemory).run enterKey).save keyRing home).page :=
    run_concat ..
  have hstate : page.state = .saved := hpage ▸ state_of_save_eq_ok hresult
  obtain ⟨hvalid, htouched⟩ :=
    stays_valid homeSession .inMemory (enterKey ++ [.save keyRing home])
  have hsettled : page.state ∈ [PageState.validated, .saved] := by simp [hstate]
  obtain ⟨before, a, after, fs, left', report, hactions, hafter, hpasses, hagain⟩ :=
    hvalid hsettled
  -- The save is the last action, so nothing stands behind the last check.
  obtain rfl : after = [] := by
    rcases List.eq_nil_or_concat' after with hnil | ⟨most, b, rfl⟩
    · exact hnil
    · rw [← List.cons_append, ← List.append_assoc] at hactions
      obtain ⟨-, hb⟩ := List.append_inj' hactions rfl
      have hchecks := hafter b (by simp)
      cases List.singleton_inj.1 hb
      cases hchecks
  obtain ⟨rfl, ha⟩ := List.append_inj' hactions rfl
  obtain rfl := List.singleton_inj.1 ha
  have hkeep := Credential.Keeps.refl keyRing
  refine ⟨hstate, ?_, htouched .touch ?_⟩
  · cases hpasses with
    | saved _ report h =>
        obtain rfl := Except.ok.inj (hresult.symm.trans h)
        exact hagain keyRing hkeep
    | unfiled _ report e h _ => cases hresult.symm.trans h
  · have hsome : ((Page.new homeSession .inMemory).run enterKey).security.isSome = true := by cbv
    rw [← (same_save keyRing home).2.2, ← hpage] at hsome
    exact Option.isSome_iff_ne_none.1 hsome

end ConnectionSecurity.Page
