import Mathlib
import ConnectionSecurity.Proofs.Page.Save
import ConnectionSecurity.Proofs.Page.Shape
import ConnectionSecurity.Proofs.Security.Gate
import ConnectionSecurity.Proofs.Security.HiddenKey

/-!
# The WEP keys that a page saves

A page checks the WEP key that is shown and writes them all. So a key that is written need not be
valid if it is out of sight, and it is out of sight because an action put it there (`PutsAway`): its
text was shown when another key was chosen, or stood in a profile that was read. What one action
does to the keys out of sight (`putsAway_or_hides`) gives, for the last page of a run, the action
that each of them is from (`exists_putsAway`).
-/

namespace ConnectionSecurity.Page

open Security

variable {page : Page} {a : Action} {i : Nat} {x : String}

/-- A text is out of sight as the WEP key with a number. -/
def Hides (page : Page) (i : Nat) (x : String) : Prop :=
  ∃ w, page.security = some (.wep w) ∧ w.stash[i]? = some x

/-- An action puts a text out of sight as the WEP key with a number: it shows another key in its
place, or it reads a profile that has this key. -/
inductive PutsAway (page : Page) : Action → Nat → String → Prop
  | edit (fs : FileSystem) (w : Wep) (index i : Nat) (x : String)
      (hw : page.security = some (.wep w)) (h : w.Stows (.select index) i x) :
      PutsAway page (.edit fs (.wepKey index)) i x
  | loadSecrets (p : Profile) (i : Nat) (x : String) (h : p.wepKey? i = some x) :
      PutsAway page (.loadSecrets p) i x
  | load (fs : FileSystem) (p : Profile) (i : Nat) (x : String) (h : p.wepKey? i = some x) :
      PutsAway page (.load fs p) i x

/-! ## One action -/

theorem exists_ofProfile_of_ofKind? {kind : SecurityKind} {p : Profile} {session : Session}
    {waivers : Waiver.Table} {w : Wep} (h : ofKind? kind p session waivers = some (.wep w)) :
    ∃ type, w = .ofProfile type p session := by
  cases kind with
  | none => cases h
  | wep type => exact ⟨type, (Security.wep.inj (Option.some.inj h)).symm⟩
  | _ => cases Option.some.inj h

/-- WEP that was just made hides nothing. -/
theorem stash_ofProfile_ne (type : Profile.WepKeyType) (p : Profile) (session : Session)
    (hx : x ≠ "") : (Wep.ofProfile type p session).stash[i]? ≠ some x := by
  intro h
  rw [Wep.stash_ofProfile, Vector.getElem?_replicate] at h
  split at h
  · exact hx (Option.some.inj h).symm
  · cases h

theorem wep_of_loadSecrets {s : Security} {p : Profile} {w : Wep}
    (h : s.loadSecrets p = .wep w) : ∃ w₀, s = .wep w₀ ∧ w = w₀.loadSecrets p := by
  cases s with
  | wep w₀ => exact ⟨w₀, rfl, (Security.wep.inj h).symm⟩
  | _ => cases h

theorem wep_of_edit {s : Security} {fs : FileSystem} {session : Session} {waivers : Waiver.Table}
    {e : Edit} {w : Wep} (h : (s.edit fs session waivers e).2 = .wep w) : ∃ w₀, s = .wep w₀ := by
  cases s with
  | wep w₀ => exact ⟨w₀, rfl⟩
  | enterprise w₀ =>
      cases e with
      | selectMethod kind =>
          simp only [Security.edit] at h
          split at h <;> cases h
      | _ => cases h
  | _ => cases e <;> cases h

/-- What is out of sight once a profile was read is from the profile, or was out of sight before. -/
theorem wepKey?_or_stash_of_loadSecrets {w : Wep} {p : Profile} (hx : x ≠ "")
    (h : (w.loadSecrets p).stash[i]? = some x) :
    p.wepKey? i = some x ∨ w.stash[i]? = some x := by
  rcases (Wep.stash_loadSecrets_iff hx p).1 h with hstows | ⟨-, hold⟩
  · cases hstows with
    | loadSecrets _ s _ _ hp hkey _ =>
        left
        rw [Profile.wepKey?, hp]
        exact hkey
  · exact .inr hold

/-- **What an action does to the keys out of sight.** One that is there afterwards was put there by
the action, or was there before. -/
theorem putsAway_or_hides (hshown : ∀ s, page.security = some s → s.ShownOnce) (hx : x ≠ "")
    (h : (page.act a).Hides i x) : page.PutsAway a i x ∨ page.Hides i x := by
  obtain ⟨w, hw, hstash⟩ := h
  have hsame (hsecurity : (page.act a).security = page.security) : page.Hides i x :=
    ⟨w, hsecurity.symm.trans hw, hstash⟩
  cases a with
  | load fs p =>
      obtain ⟨s, hs, hload⟩ := Option.map_eq_some_iff.1 hw
      obtain ⟨w₀, rfl, rfl⟩ := wep_of_loadSecrets hload
      obtain ⟨type, rfl⟩ := exists_ofProfile_of_ofKind? hs
      rcases wepKey?_or_stash_of_loadSecrets hx hstash with hkey | hold
      · exact .inl (.load fs p i x hkey)
      · exact absurd hold (stash_ofProfile_ne type p page.session hx)
  | select kind p =>
      rw [act_select] at hw
      split at hw
      next => exact .inr ⟨w, hw, hstash⟩
      next =>
        obtain ⟨type, rfl⟩ := exists_ofProfile_of_ofKind? hw
        exact absurd hstash (stash_ofProfile_ne type p.clearSecurity page.session hx)
  | touch => exact .inr (hsame page.same_touch.2.2)
  | edit fs e =>
      have hedit : (page.edit fs e).2.security = some (.wep w) := hw
      unfold Page.edit at hedit
      cases hs : page.security with
      | none =>
          rw [hs] at hedit
          exact absurd (hs.symm.trans hedit) nofun
      | some s =>
          rw [hs] at hedit
          have hedit := Option.some.inj hedit
          obtain ⟨w₀, rfl⟩ := wep_of_edit hedit
          rw [Wep.edit_wep] at hedit
          obtain rfl := Security.wep.inj hedit
          cases ht : Wep.Touch.ofEdit? e with
          | none =>
              rw [ht] at hstash
              exact .inr ⟨w₀, hs, hstash⟩
          | some t =>
              rw [ht] at hstash
              rcases (Wep.stash_on_iff (hshown _ hs) hx).1 hstash with hstows | ⟨-, hold⟩
              · -- Of the edits, only the choice of a key puts something out of sight.
                cases e with
                | wepKey index =>
                    obtain rfl := Option.some.inj ht
                    exact .inl (.edit fs w₀ index i x hs hstows)
                | secret e =>
                    obtain rfl := Option.some.inj ht
                    cases hstows
                | wepAuth auth =>
                    obtain rfl := Option.some.inj ht
                    cases hstows
                | _ => cases ht
              · exact .inr ⟨w₀, hs, hold⟩
  | loadSecrets p =>
      obtain ⟨s, hs, hload⟩ := Option.map_eq_some_iff.1 hw
      obtain ⟨w₀, rfl, rfl⟩ := wep_of_loadSecrets hload
      rcases wepKey?_or_stash_of_loadSecrets hx hstash with hkey | hold
      · exact .inl (.loadSecrets p i x hkey)
      · exact .inr ⟨w₀, hs, hold⟩
  | validate fs p => exact .inr (hsame (page.same_validate fs p).2.2)
  | save fs p => exact .inr (hsame (page.same_save fs p).2.2)
  | waivers table => exact .inr (hsame rfl)

/-! ## Every run -/

/-- What is out of sight at the end of a run was put there by one of its actions, and has been out
of sight ever since. -/
theorem exists_putsAway (session : Session) (store : Waiver.Store) (actions : List Action)
    (hx : x ≠ "") (h : ((Page.new session store).run actions).Hides i x) :
    ∃ before a after, actions = before ++ a :: after ∧
      ((Page.new session store).run before).PutsAway a i x ∧
      ∀ between, between <+: after →
        ((Page.new session store).run (before ++ a :: between)).Hides i x := by
  have hshown (actions : List Action) :
      ∀ s, ((Page.new session store).run actions).security = some s → s.ShownOnce :=
    (lasting_shownOnce session).run (fun a _ => by cases a <;> trivial) store
  induction actions using List.reverseRecOn with
  | nil =>
      obtain ⟨w, hw, -⟩ := h
      cases hw
  | append_singleton actions a ih =>
      rw [run_concat] at h
      rcases putsAway_or_hides (hshown actions) hx h with hputs | hold
      · refine ⟨actions, a, [], rfl, hputs, fun between hbetween => ?_⟩
        obtain rfl := List.prefix_nil.1 hbetween
        rw [run_concat]
        exact h
      · obtain ⟨before, b, after, rfl, hputs, hkept⟩ := ih hold
        refine ⟨before, b, after ++ [a], ?_, hputs, fun between hbetween => ?_⟩
        · rw [List.append_assoc, List.cons_append]
        · rcases List.prefix_concat_iff.1 hbetween with rfl | hbetween
          · rw [← List.cons_append, ← List.append_assoc, run_concat]
            exact h
          · exact hkept between hbetween

/-! ## What is saved -/

theorem ne_empty_of_checkWepKey {type : Profile.WepKeyType}
    (h : checkWepKey x type = .ok ()) : x ≠ "" := by
  rintro rfl
  cases type <;> cases h

/-- A text that is kept and passed the check passes it by itself. -/
theorem eq_ok_of_checkKept {c : Secret.Control} {checked : Except Fault Unit} {report : Report}
    (hkept : c.policy.keepsText = true) (h : checkKept c checked = .ok report) :
    checked = .ok () := by
  unfold checkKept at h
  rw [if_pos hkept] at h
  obtain ⟨_, hchecked, -⟩ := Except.bind_eq_ok.1 h
  exact hchecked

section Saved

variable {fs : FileSystem} {p : Profile} {w : Wep} {report : Report}

/-- The setting that a page saves is the one that WEP writes. -/
theorem wirelessSecurity_save (hw : page.security = some (.wep w))
    (hsave : (page.save fs p).result = .ok report) :
    (page.save fs p).profile.wirelessSecurity = some (w.setting p) := by
  obtain ⟨-, hprofile, -⟩ := of_save_eq_ok hsave
  rw [hprofile, written_of_some hw]
  show (w.write p).wirelessSecurity = _
  rw [Wep.write_eq, Profile.wirelessSecurity_securedBy]

/-- The WEP keys that a page saves are those of its security, unless they are not to be saved. -/
theorem wepKey?_save (hw : page.security = some (.wep w))
    (hsave : (page.save fs p).result = .ok report) (i : Nat) :
    (page.save fs p).profile.wepKey? i =
      if w.control.policy.keepsText then (w.key? i).filter (!·.isEmpty) else none := by
  obtain ⟨-, hprofile, -⟩ := of_save_eq_ok hsave
  rw [← Wep.wepKey?_write w p i, hprofile, written_of_some hw]
  rfl

/-- A page that is saved has checked the key that is shown. -/
theorem checkKept_of_save (hw : page.security = some (.wep w))
    (hsave : (page.save fs p).result = .ok report) :
    checkKept w.control (checkWepKey w.control.text w.keyType) = .ok report := by
  obtain ⟨hcheck, -, -⟩ := of_save_eq_ok hsave
  obtain ⟨-, -, hreports⟩ := check_eq_ok.1 hcheck
  rw [hw] at hreports
  exact hreports

end Saved

/-- **The WEP keys that a page saves.** Take a page with WEP that any run of actions has reached,
and a save that succeeds. The key that is shown is the one to send with. If the keys are not saved,
none is written. Otherwise the one that is shown is written and valid for the written type. A
written key that is not valid is out of sight, an action of the run put it there, and it has been
out of sight ever since. -/
theorem keys_of_save (session : Session) (store : Waiver.Store) (actions : List Action)
    (fs : FileSystem) (p : Profile) (report : Report) (w : Wep) :
    let empty := Page.new session store
    let page := empty.run actions
    let saved := (page.save fs p).profile
    page.security = some (.wep w) → (page.save fs p).result = .ok report →
      (∃ s, saved.wirelessSecurity = some s ∧ s.wepKeyType = some w.keyType ∧
        s.wepTxKeyIndex.toNat = w.index) ∧
      (w.control.policy = .notSaved → ∀ i, saved.wepKey? i = none) ∧
      (w.control.policy ≠ .notSaved → saved.wepKey? w.index = some w.control.text ∧
        checkWepKey w.control.text w.keyType = .ok ()) ∧
      ∀ i x, saved.wepKey? i = some x → checkWepKey x w.keyType = .ok () ∨
        i ≠ w.index ∧ ∃ before a after, actions = before ++ a :: after ∧
          (empty.run before).PutsAway a i x ∧
          ∀ between, between <+: after → (empty.run (before ++ a :: between)).Hides i x := by
  intro empty page saved hw hsave
  have hvalid := checkKept_of_save hw hsave
  have hkeys := wepKey?_save hw hsave
  refine ⟨⟨w.setting p, wirelessSecurity_save hw hsave, rfl, ?_⟩, ?_, ?_, ?_⟩
  · have hlt : w.index.val < 4 := w.index.isLt
    show (UInt32.ofNat w.index).toNat = w.index
    rw [UInt32.toNat_ofNat']
    omega
  · intro hpolicy i
    rw [hkeys, hpolicy]
    rfl
  · intro hpolicy
    have hkept : w.control.policy.keepsText = true := Secret.Policy.keepsText_iff.2 hpolicy
    have hvalid := eq_ok_of_checkKept hkept hvalid
    refine ⟨?_, hvalid⟩
    rw [hkeys, if_pos hkept, Wep.key?_of_eq rfl, Option.filter_some_pos]
    simp [ne_empty_of_checkWepKey hvalid]
  · intro i x hkey
    rw [hkeys] at hkey
    split at hkey
    next hkept =>
      obtain ⟨hkey, hne⟩ := Option.filter_eq_some_iff.1 hkey
      have hx : x ≠ "" := by simpa using hne
      by_cases hi : i = w.index
      · rw [Wep.key?_of_eq hi] at hkey
        obtain rfl := Option.some.inj hkey
        exact .inl (eq_ok_of_checkKept hkept hvalid)
      · rw [Wep.key?_of_ne hi] at hkey
        exact .inr ⟨hi, exists_putsAway session store actions hx ⟨w, hw, hkey⟩⟩
    next => cases hkey

/-- Two WEP keys are typed, the first of which is too short. -/
def typeKeys : List Action :=
  [.select (.wep .key) keyed, .edit (.blank []) (.secret (.text "bad")),
    .edit (.blank []) (.wepKey 1), .edit (.blank []) (.secret (.text "abcde"))]

/-- The second key is shown, checked and saved, the first is saved as it was put out of sight. -/
theorem keys_of_save_typeKeys :
    let session := Session.forProfile keyed {} false
    let page := (Page.new session .inMemory).run typeKeys
    let saved := (page.save (.blank []) keyed).profile
    (page.save (.blank []) keyed).result = .ok [] ∧ saved.wepKey? 1 = some "abcde" ∧
      saved.wepKey? 0 = some "bad" ∧ ∃ before a after, typeKeys = before ++ a :: after ∧
        ((Page.new session .inMemory).run before).PutsAway a 0 "bad" := by
  intro session page saved
  obtain ⟨w, hw, hindex, htype, htext, hpolicy⟩ : ∃ w, page.security = some (.wep w) ∧
      w.index = 1 ∧ w.keyType = .key ∧ w.control.text = "abcde" ∧ w.control.policy = .stored := by
    refine ⟨_, rfl, ?_, ?_, ?_, ?_⟩
    all_goals cbv
  have hresult : (page.save (.blank []) keyed).result = .ok [] := by cbv
  have hbad : (page.save (.blank []) keyed).profile.wepKey? 0 = some "bad" := by cbv
  obtain ⟨-, -, hshown, hhidden⟩ :=
    keys_of_save session .inMemory typeKeys (.blank []) keyed [] w hw hresult
  obtain ⟨hkey, -⟩ := hshown (by rw [hpolicy]; decide)
  rw [hindex, htext] at hkey
  refine ⟨hresult, hkey, hbad, ?_⟩
  rcases hhidden 0 "bad" hbad with hvalid | ⟨-, before, a, after, hactions, hputs, -⟩
  · rw [htype] at hvalid
    cases hvalid
  · exact ⟨before, a, after, hactions, hputs⟩

/-- The save succeeds and writes a key that is not valid for the type it writes. -/
theorem saved_key_is_not_valid :
    let page := (Page.new (.forProfile keyed {} false) .inMemory).run typeKeys
    let saved := (page.save (.blank []) keyed).profile
    (page.save (.blank []) keyed).result = .ok [] ∧
      (saved.wirelessSecurity.bind (·.wepKeyType)) = some .key ∧
      saved.wepKey? 0 = some "bad" ∧ checkWepKey "bad" .key = .error (.keyLength 3) := by
  refine ⟨?_, ?_, ?_, ?_⟩
  all_goals cbv

end ConnectionSecurity.Page
