import Mathlib
import ConnectionSecurity.Proofs.Page.Save

/-!
# The order of the states of a page

A new page is uninitialized, and no page ever becomes so again. A load or a choice from the menu
fills it; a validation or a save checks it, whether it was filled or not. So an uninitialized page
is one that was neither filled nor checked (`order_of_states`).

A page that was never filled stands for a network without security. It is fit for every network that
has a name, and saving it takes the security of the profile away.
-/

namespace ConnectionSecurity.Page

variable {page : Page} {session : Session} {a : Action}

/-- The action fills a page: it loads a profile, or chooses an entry that the menu has. -/
def Action.fills (medium : Medium) : Action → Bool
  | load .. => true
  | select kind _ => (SecurityKind.menu medium).contains kind
  | _ => false

/-- The action checks a page. -/
def Action.checks : Action → Bool
  | validate .. => true
  | save .. => true
  | _ => false

/-! ## One action -/

theorem state_act_of_fills (h : page.state = .uninitialized)
    (ha : a.fills page.session.medium = true) : (page.act a).state = .configured := by
  cases a with
  | load fs p => rfl
  | select kind p =>
      have hmenu : page.menu.contains kind = true := ha
      rw [act_select, if_neg]
      rintro (hnot | ⟨-, hstate⟩)
      · rw [hmenu] at hnot
        cases hnot
      · exact hstate h
  | _ => cases ha

/-- Where a check leads: a validation tells whether the page is fit. So does a save, but a fit page is
saved then, unless its row cannot be persisted. -/
inductive Verdict (page : Page) : Action → PageState → Prop where
  | valid {fs : FileSystem} {p : Profile} {report : Report} (h : page.check fs p = .ok report) :
      Verdict page (.validate fs p) .validated
  | invalid {fs : FileSystem} {p : Profile} {fault : Fault} (h : page.check fs p = .error fault) :
      Verdict page (.validate fs p) .invalid
  | refused {fs : FileSystem} {p : Profile} {fault : Fault} (h : page.check fs p = .error fault) :
      Verdict page (.save fs p) .invalid
  | unsaved {fs : FileSystem} {p : Profile} {e : Waiver.StoreError}
      (h : (page.save fs p).result = .error (.waiver e)) : Verdict page (.save fs p) .validated
  | saved {fs : FileSystem} {p : Profile} {report : Report}
      (h : (page.save fs p).result = .ok report) : Verdict page (.save fs p) .saved

theorem Verdict.mem {state : PageState} (h : page.Verdict a state) :
    state ∈ [PageState.validated, .invalid, .saved] := by
  cases h <;> simp

/-- How a check goes. -/
theorem verdict_of_checks (page : Page) (ha : a.checks = true) :
    page.Verdict a (page.act a).state := by
  cases a with
  | validate fs p =>
      show page.Verdict _ (page.validate fs p).2.state
      unfold Page.validate
      cases hcheck : page.check fs p with
      | ok report => exact .valid hcheck
      | error fault => exact .invalid hcheck
  | save fs p =>
      show page.Verdict _ (page.save fs p).page.state
      rcases page.save_cases fs p with ⟨_, hc, hs⟩ | ⟨_, _, -, ⟨_, -, hs⟩ | ⟨-, hs⟩⟩
      · exact hs ▸ .refused hc
      · exact hs ▸ .unsaved (congrArg Saved.result hs)
      · exact hs ▸ .saved (congrArg Saved.result hs)
  | _ => cases ha

/-- A page that was checked is not uninitialized. -/
theorem state_act_of_checks_ne (page : Page) (ha : a.checks = true) :
    (page.act a).state ≠ .uninitialized := by
  intro hstate
  have hmem := (page.verdict_of_checks ha).mem
  rw [hstate] at hmem
  simp at hmem

/-- No page becomes uninitialized again. -/
theorem state_act_ne (h : page.state ≠ .uninitialized) (a : Action) :
    (page.act a).state ≠ .uninitialized := by
  have htouch : page.touch.state ≠ .uninitialized := by
    unfold Page.touch
    split
    next => nofun
    next => exact h
  cases a with
  | load fs p => nofun
  | select kind p =>
      rw [act_select]
      split
      next => exact h
      next => nofun
  | touch => exact htouch
  | edit fs e =>
      show (page.edit fs e).2.state ≠ _
      unfold Page.edit
      cases page.security with
      | none => exact h
      | some s => nofun
  | loadSecrets p => exact htouch
  | validate fs p => exact page.state_act_of_checks_ne rfl
  | save fs p => exact page.state_act_of_checks_ne rfl
  | waivers table => exact h

theorem state_run_ne (h : page.state ≠ .uninitialized) (actions : List Action) :
    (page.run actions).state ≠ .uninitialized :=
  run_keeps (I := fun page => page.state ≠ .uninitialized) (fun _ a _ h => state_act_ne h a)
    (fun _ _ => trivial) h

/-! ## A page that was not filled -/

/-- The page stands for a network without security, with nothing to edit. -/
structure Blank (session : Session) (page : Page) : Prop where
  session_eq : page.session = session
  kind_eq : page.kind = .none
  security_eq : page.security = none
  state_mem : page.state ∈ [PageState.uninitialized, .validated, .invalid, .saved]

theorem blank_new (session : Session) (store : Waiver.Store) :
    (Page.new session store).Blank session := ⟨rfl, rfl, rfl, List.mem_cons_self⟩

/-- What neither fills nor checks a page without security leaves its state alone. -/
theorem Blank.state_act (h : page.Blank session) (hfills : a.fills session.medium = false)
    (hchecks : a.checks = false) : (page.act a).state = page.state := by
  obtain ⟨rfl, -, hsecurity, -⟩ := h
  cases a with
  | load fs p => cases hfills
  | select kind p =>
      have hmenu : page.menu.contains kind = false := hfills
      rw [act_select, if_pos (.inl hmenu)]
  | touch => exact congrArg Page.state (touch_of_none hsecurity)
  | edit fs e => exact congrArg (·.2.state) (edit_of_none hsecurity fs e)
  | loadSecrets p => exact congrArg Page.state (loadSecrets_of_none hsecurity p)
  | validate fs p => cases hchecks
  | save fs p => cases hchecks
  | waivers table => rfl

/-- Only a fill gives a page security. -/
theorem Blank.act (h : page.Blank session) (ha : a.fills session.medium = false) :
    (page.act a).Blank session := by
  have hstate : (page.act a).state ∈ [PageState.uninitialized, .validated, .invalid, .saved] := by
    cases hchecks : a.checks with
    | true => exact List.mem_cons_of_mem _ (page.verdict_of_checks hchecks).mem
    | false => exact h.state_act ha hchecks ▸ h.state_mem
  obtain ⟨rfl, hkind, hsecurity, -⟩ := h
  obtain ⟨hsession, ⟨hkind', f, -, hsecurity'⟩ | ⟨kind, p, table, f, hfilled, -⟩⟩ :=
    page.act_cases a
  · refine ⟨hsession, hkind'.trans hkind, ?_, hstate⟩
    rw [hsecurity', hsecurity]
    rfl
  · cases hfilled with
    | load fs p => cases ha
    | select kind p hmenu => cases (List.contains_iff_mem.2 hmenu).symm.trans ha

theorem Blank.run (h : page.Blank session) {actions : List Action}
    (hactions : ∀ a ∈ actions, a.fills session.medium = false) :
    (page.run actions).Blank session :=
  run_keeps (fun _ _ ha h => h.act ha) hactions h

/-- All that is asked of a profile is that its network has a name. -/
theorem Blank.check_eq (h : page.Blank session) (fs : FileSystem) (p : Profile) :
    page.check fs p = if p.isWireless && p.ssid.isNone then .error .missingSsid else .ok [] := by
  unfold Page.check
  rw [h.kind_eq, h.security_eq]
  simp [SecurityKind.suitsAdhoc]

/-- Saving takes the security of the profile away. -/
theorem Blank.profile_save (h : page.Blank session) (fs : FileSystem) (p : Profile) :
    (page.save fs p).profile =
      if p.isWireless && p.ssid.isNone then p else p.clearSecurity := by
  rw [Page.profile_save, h.check_eq, written_of_none h.security_eq]
  split <;> rfl

/-! ## The order -/

/-- A page is uninitialized as long as it is neither filled nor checked. -/
theorem state_run_eq_uninitialized (h : page.Blank session) (hstate : page.state = .uninitialized)
    {actions : List Action} : (page.run actions).state = .uninitialized ↔
      ∀ a ∈ actions, a.fills session.medium = false ∧ a.checks = false := by
  induction actions generalizing page with
  | nil => exact ⟨fun _ a ha => (by cases ha), fun _ => hstate⟩
  | cons a rest ih =>
      rw [List.forall_mem_cons]
      -- The first fill or check decides, since nothing that follows leads back.
      cases hfills : a.fills session.medium with
      | true =>
          have hne : (page.act a).state ≠ .uninitialized := by
            rw [state_act_of_fills hstate (by rw [h.session_eq]; exact hfills)]
            nofun
          exact ⟨fun hrun => absurd hrun (state_run_ne hne rest), fun hall => by cases hall.1.1⟩
      | false =>
          cases hchecks : a.checks with
          | true =>
              have hne := page.state_act_of_checks_ne hchecks
              exact ⟨fun hrun => absurd hrun (state_run_ne hne rest), fun hall => by cases hall.1.2⟩
          | false =>
              refine (ih (h.act hfills) ((h.state_act hfills hchecks).trans hstate)).trans ?_
              exact ⟨fun hall => ⟨⟨rfl, rfl⟩, hall⟩, fun hall => hall.2⟩

/-- **The order of the states of a page.** After any run from an empty page, the page is
uninitialized if and only if it was neither filled nor checked; once it is not, it never is again.
It leaves this state by a fill, which configures it, or by a check, which leads where the verdict
says.

A page that was never filled has no security, and it has been checked or is still uninitialized. Any
network with a name passes its validation, and saving it into a profile that passes takes the
security of the profile away. -/
theorem order_of_states (session : Session) (store : Waiver.Store) (actions : List Action) :
    let page := (Page.new session store).run actions
    (page.state = .uninitialized ↔
      ∀ a ∈ actions, a.fills session.medium = false ∧ a.checks = false) ∧
    (page.state ≠ .uninitialized → ∀ more, (page.run more).state ≠ .uninitialized) ∧
    (page.state = .uninitialized → ∀ a,
      a.fills session.medium = true ∧ (page.act a).state = .configured ∨
      a.checks = true ∧ page.Verdict a (page.act a).state ∨
      a.fills session.medium = false ∧ a.checks = false ∧ (page.act a).state = .uninitialized) ∧
    ((∀ a ∈ actions, a.fills session.medium = false) →
      page.kind = .none ∧ page.security = none ∧
      ((∃ a ∈ actions, a.checks = true) →
        page.state ∈ [PageState.validated, .invalid, .saved]) ∧
      ∀ fs p, let nameless := p.isWireless && p.ssid.isNone
        (page.validate fs p).1 = (if nameless then .error .missingSsid else .ok []) ∧
        (page.save fs p).profile = if nameless then p else p.clearSecurity) := by
  intro page
  have hnew := blank_new session store
  have hiff : page.state = .uninitialized ↔ _ := state_run_eq_uninitialized hnew rfl
  refine ⟨hiff, fun h more => state_run_ne h more, fun h a => ?_, fun hactions => ?_⟩
  · have hpage : page.Blank session := hnew.run fun b hb => (hiff.1 h b hb).1
    cases hfills : a.fills session.medium with
    | true => exact .inl ⟨rfl, state_act_of_fills h (by rw [hpage.session_eq]; exact hfills)⟩
    | false =>
        cases hchecks : a.checks with
        | true => exact .inr (.inl ⟨rfl, page.verdict_of_checks hchecks⟩)
        | false => exact .inr (.inr ⟨rfl, rfl, (hpage.state_act hfills hchecks).trans h⟩)
  · have hpage : page.Blank session := hnew.run hactions
    refine ⟨hpage.kind_eq, hpage.security_eq, fun ⟨a, ha, hchecks⟩ => ?_, fun fs p => ⟨?_, ?_⟩⟩
    · rcases List.mem_cons.1 hpage.state_mem with h | h
      · rw [(hiff.1 h a ha).2] at hchecks
        cases hchecks
      · exact h
    · rw [result_validate, hpage.check_eq]
    · exact hpage.profile_save fs p

/-- A network with a shared key. -/
def keyed : Profile :=
  (Profile.newWireless "home" "uuid" "net").secureWith
    { keyMgmt := "wpa-psk", psk := some "secret phrase" }

/-- The page of its connection, which was not loaded. -/
def unopened : Page := .new (.forProfile keyed {} false) .inMemory

/-- A page that was neither loaded nor told a type of security is validated and saved, and takes the
shared key away. -/
theorem unopened_strips :
    (unopened.validate (.blank []) keyed).2.state = .validated ∧
      (unopened.save (.blank []) keyed).page.state = .saved ∧
      keyed.wirelessSecurity ≠ none ∧
      (unopened.save (.blank []) keyed).profile.wirelessSecurity = none := by
  refine ⟨?_, ?_, ?_, ?_⟩
  · cbv
  · cbv
  · exact Option.some_ne_none _
  · cbv

end ConnectionSecurity.Page
