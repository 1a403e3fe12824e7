import Mathlib
import ConnectionSecurity.Proofs.Page.Order
import ConnectionSecurity.Proofs.Security.Written

/-!
# The network and the setting that secures it

A network refers to the setting that secures it by name. In a profile that is `Linked` the name is
there exactly if the setting is. Making a profile, securing it and clearing its security all link
it, whatever it was before, and so does every save but one: credentials that are written over a wire
take the setting away and leave the name (`linked_save_iff`).
-/

namespace ConnectionSecurity

open Profile

/-! ## Linked profiles -/

namespace Profile

/-- The network names the setting that secures it. -/
def NamesSecurity (p : Profile) : Prop :=
  ∃ w, p.wireless = some w ∧ w.security = some wirelessSecurityName

/-- The network names the setting exactly if there is one. -/
def Linked (p : Profile) : Prop := p.NamesSecurity ↔ p.wirelessSecurity ≠ none

variable (p : Profile) (s : WirelessSecurity)

theorem namesSecurity_secureWith : (p.secureWith s).NamesSecurity :=
  ⟨{ p.wireless.getD {} with security := some wirelessSecurityName }, rfl, rfl⟩

theorem not_namesSecurity_clearSecurity : ¬p.clearSecurity.NamesSecurity := by
  rintro ⟨w, hw, hname⟩
  obtain ⟨before, -, rfl⟩ := Option.map_eq_some_iff.1 hw
  cases hname

theorem linked_newWireless (id uuid ssid : String) : (newWireless id uuid ssid).Linked := by
  refine iff_of_false ?_ fun h => h rfl
  rintro ⟨w, hw, hname⟩
  cases hw
  cases hname

theorem linked_newWired (id uuid : String) : (newWired id uuid).Linked := by
  refine iff_of_false ?_ fun h => h rfl
  rintro ⟨w, hw, -⟩
  cases hw

theorem linked_secureWith : (p.secureWith s).Linked :=
  iff_of_true (p.namesSecurity_secureWith s) (Option.some_ne_none s)

theorem linked_clearSecurity : p.clearSecurity.Linked :=
  iff_of_false p.not_namesSecurity_clearSecurity fun h => h rfl

theorem linked_securedBy : (p.securedBy s).Linked := p.linked_secureWith s

end Profile

/-! ## Writing -/

namespace Security

variable {fs : FileSystem} {session : Session} {p : Profile} {waivers : Waiver.Table}

/-- The credentials of a connection that is made over a wire. -/
def OverWire : Security → Prop
  | enterprise w => w.medium = .wired
  | _ => False

/-- What is written is linked, but for credentials over a wire: these only take the setting away. -/
theorem linked_write_iff (s : Security) : (s.write fs session p waivers).1.Linked ↔
    ¬(s.OverWire ∧ p.NamesSecurity) := by
  cases s with
  | wep w =>
      rw [write, Wep.write_eq]
      exact iff_of_true (p.linked_securedBy _) fun h => h.1
  | personal w =>
      rw [write, Personal.write_eq]
      exact iff_of_true (p.linked_securedBy _) fun h => h.1
  | leap w =>
      rw [write, WirelessLeap.write_eq]
      exact iff_of_true (p.linked_securedBy _) fun h => h.1
  | enterprise w =>
      rw [write, Enterprise.write_eq, Enterprise.secured]
      cases hmedium : w.medium with
      | wireless =>
          refine iff_of_true (linked_secureWith _ _) fun h => ?_
          exact Medium.noConfusion (hmedium.symm.trans h.1)
      | wired =>
          -- The setting is gone, so the profile is linked if the name is not there either.
          show (p.NamesSecurity ↔ none ≠ none) ↔ ¬(w.medium = .wired ∧ p.NamesSecurity)
          simp [hmedium]

end Security

/-! ## Saving -/

namespace Page

variable {fs : FileSystem} {p : Profile} {page : Page} {report : Report}

/-- The page holds credentials for 802.1x over a wire. -/
def OverWire (page : Page) : Prop := ∃ s, page.security = some s ∧ s.OverWire

theorem linked_save_iff (h : (page.save fs p).result = .ok report) :
    (page.save fs p).profile.Linked ↔ ¬(page.OverWire ∧ p.NamesSecurity) := by
  obtain ⟨-, hprofile, -⟩ := of_save_eq_ok h
  rw [hprofile]
  cases hs : page.security with
  | none =>
      rw [written_of_none hs]
      refine iff_of_true p.linked_clearSecurity ?_
      rintro ⟨⟨s, hsome, -⟩, -⟩
      cases hs.symm.trans hsome
  | some s =>
      have hover : page.OverWire ↔ s.OverWire := by simp [OverWire, hs]
      rw [written_of_some hs, hover]
      exact s.linked_write_iff

/-- **No dangling reference, but for one.** New profiles are linked, and so is every profile that was
secured or cleared. A save that succeeds takes a linked profile to a linked one, whatever the page
and the profile hold, except where credentials are written over a wire into a profile that has the
setting of a secured network: then the setting is gone, and the network still names it. -/
theorem stays_linked (page : Page) (fs : FileSystem) (p : Profile) :
    (∀ id uuid ssid, (newWireless id uuid ssid).Linked) ∧ (∀ id uuid, (newWired id uuid).Linked) ∧
      (∀ setting, (p.secureWith setting).Linked) ∧ p.clearSecurity.Linked ∧
      ∀ report, p.Linked → (page.save fs p).result = .ok report →
        ((page.save fs p).profile.Linked ↔ ¬(page.OverWire ∧ p.wirelessSecurity ≠ none)) := by
  refine ⟨linked_newWireless, linked_newWired, p.linked_secureWith, p.linked_clearSecurity, ?_⟩
  intro report hp hsave
  have hlinked : p.NamesSecurity ↔ p.wirelessSecurity ≠ none := hp
  rw [linked_save_iff hsave, hlinked]

/-! ### A secured network, and a wired profile that has kept one -/

/-- A network with a shared key refers to its setting, and still does when its page was saved. -/
theorem stays_linked_keyed :
    let saved := (unopened.load (.blank []) keyed).save (.blank []) keyed
    keyed.Linked ∧ keyed.NamesSecurity ∧ saved.result = .ok [] ∧
      saved.profile.Linked ∧ saved.profile.wirelessSecurity ≠ none := by
  intro saved
  have hresult : saved.result = .ok [] := by cbv
  have hpersonal : ∃ w, (unopened.load (.blank []) keyed).security = some (.personal w) :=
    ⟨_, by cbv⟩
  have hover : ¬(unopened.load (.blank []) keyed).OverWire := by
    obtain ⟨w, hw⟩ := hpersonal
    rintro ⟨s, hs, hwire⟩
    cases hw.symm.trans hs
    exact hwire
  have hkept : ∃ setting, saved.profile.wirelessSecurity = some setting := ⟨_, by cbv⟩
  obtain ⟨-, -, -, -, hsaved⟩ := stays_linked (unopened.load (.blank []) keyed) (.blank []) keyed
  have hkeyed : keyed.Linked := linked_secureWith _ _
  have hlinked : saved.profile.Linked := (hsaved [] hkeyed hresult).2 fun h => hover h.1
  exact ⟨hkeyed, namesSecurity_secureWith _ _, hresult, hlinked, Option.ne_none_iff_exists'.2 hkept⟩

/-- A wired connection that has kept a secured network. -/
def rewired : Profile :=
  { (Profile.newWired "home" "uuid").secureWith (.ofKeyMgmt "wpa-eap") with
    authentication := some { eap := ["md5"], identity := some "me", password := some "pass" } }

/-- The page that was filled from it. -/
def rewiredPage : Page :=
  (Page.new (.forProfile rewired {} false) .inMemory).load (.blank []) rewired

theorem overWire_rewiredPage : rewiredPage.OverWire := by
  obtain ⟨w, hsecurity, hwired⟩ : ∃ w, rewiredPage.security = some (.enterprise w) ∧
      w.medium = .wired := ⟨_, by cbv, rfl⟩
  exact ⟨.enterprise w, hsecurity, hwired⟩

/-- The profile it was filled from is saved without the setting, and the network still names it. -/
theorem save_unlinks_rewired : rewired.Linked ∧
    (rewiredPage.save (.blank []) rewired).result = .ok [] ∧
      ¬(rewiredPage.save (.blank []) rewired).profile.Linked := by
  have hresult : (rewiredPage.save (.blank []) rewired).result = .ok [] := by cbv
  have hnamed : rewired.NamesSecurity :=
    namesSecurity_secureWith (.newWired "home" "uuid") (.ofKeyMgmt "wpa-eap")
  have hrewired : rewired.Linked := iff_of_true hnamed (Option.some_ne_none _)
  refine ⟨hrewired, hresult, fun hlinked => ?_⟩
  exact (linked_save_iff hresult).1 hlinked ⟨overWire_rewiredPage, hnamed⟩

end Page

end ConnectionSecurity
