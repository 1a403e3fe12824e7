import Mathlib
import ConnectionSecurity.Proofs.Page.Save
import ConnectionSecurity.Proofs.Security.Written

/-!
# Networks with and without an access point

A network without an access point can be secured in few ways, and each is written in a form of its
own (`LeftAdhoc`); a network with one has none of these forms (`LeftByAccessPoint`). Whether there
is an access point is read when a wrapper is made, when the page is checked and when it is written.
Only the last two count: the profile that is saved decides, whatever the profiles looked like that
the page was filled from (`settings_of_save`).
-/

namespace ConnectionSecurity

open Profile

variable {fs : FileSystem} {session : Session} {waivers : Waiver.Table} {p saved : Profile}

/-- A profile whose network has no access point, as security of a kind leaves it. -/
inductive LeftAdhoc (saved : Profile) : SecurityKind → Prop where
  | unsecured (hsecurity : saved.wirelessSecurity = none)
      (hauthentication : saved.authentication = none) :
      LeftAdhoc saved .none
  | wep (type : WepKeyType) (s : WirelessSecurity) (hsecurity : saved.wirelessSecurity = some s)
      (hauthentication : saved.authentication = none) (hmgmt : s.keyMgmt = "none")
      (halg : s.authAlg = some "open") : LeftAdhoc saved (.wep type)
  | wpaPsk (s : WirelessSecurity) (hsecurity : saved.wirelessSecurity = some s)
      (hauthentication : saved.authentication = none) (hmgmt : s.keyMgmt = "wpa-none")
      (hproto : s.proto = ["wpa"]) (hpairwise : s.pairwise = ["none"])
      (hgroup : s.group = ["tkip"]) :
      LeftAdhoc saved .wpaPsk

/-- A profile in which nothing is written the way it is without an access point. -/
def LeftByAccessPoint (saved : Profile) : Prop :=
  ∀ s, saved.wirelessSecurity = some s →
    s.keyMgmt ≠ "wpa-none" ∧ s.proto = [] ∧ s.pairwise = [] ∧ s.group = []

/-- Without an access point there is no security, WEP or WPA, and no credentials are left. -/
theorem LeftAdhoc.kind_cases {kind : SecurityKind} (h : LeftAdhoc saved kind) :
    (kind = .none ∨ (∃ type, kind = .wep type) ∨ kind = .wpaPsk) ∧ saved.authentication = none := by
  cases h with
  | unsecured _ hauthentication => exact ⟨.inl rfl, hauthentication⟩
  | wep type _ _ hauthentication => exact ⟨.inr (.inl ⟨type, rfl⟩), hauthentication⟩
  | wpaPsk _ _ hauthentication => exact ⟨.inr (.inr rfl), hauthentication⟩

theorem leftAdhoc_clearSecurity (p : Profile) : LeftAdhoc p.clearSecurity .none :=
  .unsecured rfl rfl

theorem leftByAccessPoint_clearSecurity (p : Profile) : LeftByAccessPoint p.clearSecurity :=
  fun _ hs => by cases hs

namespace Security

variable {s : Security}

/-! ## What each kind of security writes -/

/-- Without an access point, every security that will do writes the form of its own. -/
theorem leftAdhoc_write (hadhoc : p.isAdhoc = true) (hsuits : s.suitsAdhoc = true) :
    LeftAdhoc (s.write fs session p waivers).1 s.kind := by
  cases s with
  | wep w =>
      show LeftAdhoc (w.write p) (.wep w.keyType)
      rw [Wep.write_eq]
      -- The profile decides, whatever was chosen in the wrapper.
      refine .wep _ (w.setting p) rfl rfl rfl ?_
      simp only [Wep.setting, hadhoc, if_true]
      rfl
  | personal w =>
      show LeftAdhoc (w.write p) (if w.sae then .sae else .wpaPsk)
      cases hsae : w.sae with
      | true =>
          rw [suitsAdhoc, kind, hsae] at hsuits
          cases hsuits
      | false =>
          have hmanagement : w.management p.isAdhoc =
              { keyMgmt := "wpa-none", proto := ["wpa"], pairwise := ["none"],
                group := ["tkip"] } := by
            rw [Personal.management, hsae, hadhoc]
            rfl
          rw [Personal.write_eq]
          refine .wpaPsk (w.setting p) rfl rfl ?_ ?_ ?_ ?_
          all_goals
            unfold Personal.setting
            rw [hmanagement]
  | enterprise w =>
      cases hdynamic : w.dynamicWep <;> rw [suitsAdhoc, kind, hdynamic] at hsuits <;> cases hsuits
  | leap w => cases hsuits

/-- With an access point, no security writes any of these forms. -/
theorem leftByAccessPoint_write (hadhoc : p.isAdhoc = false) :
    LeftByAccessPoint (s.write fs session p waivers).1 := by
  intro setting hsetting
  cases s with
  | wep w =>
      have hwritten : (w.write p).wirelessSecurity = some setting := hsetting
      rw [Wep.write_eq, wirelessSecurity_securedBy] at hwritten
      obtain rfl := Option.some.inj hwritten
      refine ⟨?_, rfl, rfl, rfl⟩
      show "none" ≠ "wpa-none"
      decide
  | personal w =>
      have hwritten : (w.write p).wirelessSecurity = some setting := hsetting
      rw [Personal.write_eq, wirelessSecurity_securedBy] at hwritten
      obtain rfl := Option.some.inj hwritten
      have hmanagement :
          w.management p.isAdhoc = .ofKeyMgmt (if w.sae then "sae" else "wpa-psk") := by
        rw [Personal.management, hadhoc]
        cases w.sae <;> rfl
      unfold Personal.setting
      rw [hmanagement]
      refine ⟨?_, rfl, rfl, rfl⟩
      show (if w.sae then "sae" else "wpa-psk") ≠ "wpa-none"
      cases w.sae <;> decide
  | enterprise w =>
      have hwritten : (w.write fs session p waivers).1.wirelessSecurity = some setting := hsetting
      rw [Enterprise.write_eq, Enterprise.secured] at hwritten
      cases hmedium : w.medium with
      | wired =>
          rw [hmedium] at hwritten
          cases hwritten
      | wireless =>
          rw [hmedium] at hwritten
          obtain rfl := Option.some.inj hwritten
          refine ⟨?_, rfl, rfl, rfl⟩
          show w.keyMgmt ≠ "wpa-none"
          unfold Enterprise.keyMgmt
          cases w.dynamicWep <;> decide
  | leap w =>
      have hwritten : (w.write p).wirelessSecurity = some setting := hsetting
      rw [WirelessLeap.write_eq, wirelessSecurity_securedBy] at hwritten
      obtain rfl := Option.some.inj hwritten
      refine ⟨?_, rfl, rfl, rfl⟩
      show "ieee8021x" ≠ "wpa-none"
      decide

end Security

namespace Page

variable {page : Page} {report : Report}

/-! ## What a page writes -/

/-- A page without security is of the kind that has none, whatever it was filled from. -/
theorem kind_eq_none_of_run (session : Session) (store : Waiver.Store) (actions : List Action)
    (h : ((Page.new session store).run actions).security = none) :
    ((Page.new session store).run actions).kind = .none := by
  let I (page : Page) : Prop := page.security = none → page.kind = .none
  have hact : ∀ (page : Page) (a : Action), True → I page → I (page.act a) := by
    intro page a _ hpage hnone
    obtain ⟨-, ⟨hkind, f, -, hsecurity⟩ | ⟨kind, p, table, f, -, -, hkind, hsecurity⟩⟩ :=
      page.act_cases a
    · rw [hsecurity, Option.map_eq_none_iff] at hnone
      rw [hkind, hpage hnone]
    · rw [hsecurity, Option.map_eq_none_iff] at hnone
      rw [hkind, Security.ofKind?_eq_none.1 hnone]
  have hnew : I (Page.new session store) := fun _ => rfl
  exact run_keeps hact (fun _ _ => trivial) hnew h

theorem isAdhoc_written (page : Page) (fs : FileSystem) (p : Profile) :
    (page.written fs p).isAdhoc = p.isAdhoc := by
  cases hs : page.security with
  | none => rw [written_of_none hs, isAdhoc_clearSecurity]
  | some s => rw [written_of_some hs, Security.isAdhoc_write]

/-- A page that is fit writes the form without an access point if there is none. -/
theorem Coherent.leftAdhoc (h : page.Coherent session)
    (hnone : page.security = none → page.kind = .none) (hcheck : page.check fs p = .ok report)
    (hadhoc : p.isAdhoc = true) : LeftAdhoc (page.written fs p) page.kind := by
  have hsuits : page.kind.suitsAdhoc = true := (check_eq_ok.1 hcheck).2.1 hadhoc
  cases hs : page.security with
  | none =>
      rw [written_of_none hs, hnone hs]
      exact leftAdhoc_clearSecurity p
  | some s =>
      obtain ⟨adhoc, hwell⟩ := h.wellFormed s hs
      rw [written_of_some hs, ← hwell.kind]
      apply Security.leftAdhoc_write hadhoc
      rw [Security.suitsAdhoc, hwell.kind]
      exact hsuits

theorem leftByAccessPoint_written (hadhoc : p.isAdhoc = false) :
    LeftByAccessPoint (page.written fs p) := by
  cases hs : page.security with
  | none =>
      rw [written_of_none hs]
      exact leftByAccessPoint_clearSecurity p
  | some s =>
      rw [written_of_some hs]
      exact Security.leftByAccessPoint_write hadhoc

/-! ## Every run -/

/-- **With and without an access point.** Take a page that any run of actions has reached, with
profiles of any mode, and a save that succeeds. The profile keeps its mode. Without an access point,
the kind of the page is none, WEP or WPA with a shared key, no credentials are left, and the profile
is written in the form for that kind; otherwise nothing of these forms is written. -/
theorem settings_of_save (session : Session) (store : Waiver.Store) (actions : List Action)
    (fs : FileSystem) (p : Profile) (report : Report) :
    let page := (Page.new session store).run actions
    let saved := (page.save fs p).profile
    (page.save fs p).result = .ok report →
      saved.isAdhoc = p.isAdhoc ∧
      (p.isAdhoc = true → LeftAdhoc saved page.kind ∧
        (page.kind = .none ∨ (∃ type, page.kind = .wep type) ∨ page.kind = .wpaPsk) ∧
        saved.authentication = none) ∧
      (p.isAdhoc = false → LeftByAccessPoint saved) := by
  intro page saved hsave
  obtain ⟨hcheck, hprofile, -⟩ := of_save_eq_ok hsave
  have hsaved : saved = page.written fs p := hprofile
  rw [hsaved]
  refine ⟨page.isAdhoc_written fs p, ?_, ?_⟩
  · intro hadhoc
    have hleft : LeftAdhoc (page.written fs p) page.kind :=
      (coherent_run session store actions).leftAdhoc (kind_eq_none_of_run session store actions)
        hcheck hadhoc
    exact ⟨hleft, hleft.kind_cases⟩
  · exact leftByAccessPoint_written

/-- A network that is secured by WEP with a shared key. -/
def sharing : Profile :=
  (Profile.newWireless "home" "uuid" "net").secureWith
    { keyMgmt := "none", authAlg := some "shared",
      wepKeys := #v[some "abcde", none, none, none] }

/-- The same network once its access point is gone. -/
def alone : Profile := sharing.onWireless fun w => { w with mode := .adhoc }

/-- The page was filled while there was an access point, and saves without one. -/
theorem settings_of_save_alone :
    let page := (Page.new (.forProfile sharing {} false) .inMemory).run
      [.load (.blank []) sharing, .edit (.blank []) (.wepAuth .shared)]
    (page.save (.blank []) alone).result = .ok [] ∧
      (page.save (.blank []) alone).profile.isAdhoc = true ∧
      LeftAdhoc (page.save (.blank []) alone).profile (.wep .key) := by
  intro page
  have hresult : (page.save (.blank []) alone).result = .ok [] := by cbv
  have hkind : page.kind = .wep .key := by cbv
  obtain ⟨hadhoc, hleft, -⟩ := settings_of_save (.forProfile sharing {} false) .inMemory
    [.load (.blank []) sharing, .edit (.blank []) (.wepAuth .shared)] (.blank []) alone [] hresult
  refine ⟨hresult, hadhoc, ?_⟩
  rw [← hkind]
  exact (hleft (by decide)).1

end Page

end ConnectionSecurity
