import Mathlib
import ConnectionSecurity.Proofs.Security.Reopen
import ConnectionSecurity.Proofs.Security.Shape

/-!
# WEP keys out of sight

The control of the shown key enforces the policy; the keys in the stash are plain texts that no
policy reaches. A text gets into the stash in two ways (`Stows`): another key is selected while it
is shown, or a profile is read that holds it in another slot. It stays there until its slot is
selected or another profile is read (`Touch.handles`), whatever the policy is in the meantime. So
the stash is known exactly from what was done (`stash_run_iff`).

Hence a key that is not saved need not be gone (`keys_of_notSaved`): the one that is shown is, the
others are as they were put away, and a change of the policy back brings them to light again.
-/

namespace ConnectionSecurity

/-- The WEP key with a number, if the profile has it. -/
def Profile.wepKey? (p : Profile) (i : Nat) : Option String :=
  p.wirelessSecurity.bind (·.wepKey i)

namespace Security.Wep

open Profile

variable {w : Wep} {t : Touch} {touches : List Touch} {i : Nat} {x : String}

/-! ## What can happen to WEP keys -/

/-- What can happen to WEP once it was made. -/
inductive Touch where
  /-- Read the keys of a profile. -/
  | loadSecrets (p : Profile)
  /-- Do something to the control of the shown key. -/
  | secret (e : Secret.Control.Edit)
  | auth (a : WepAuth)
  /-- Show another key. -/
  | select (index : Nat)

namespace Touch

/-- The wrapper afterwards. A refused choice leaves it as it was. -/
def on (w : Wep) : Touch → Wep
  | loadSecrets p => w.loadSecrets p
  | secret e => { w with control := w.control.edit e }
  | auth a => w.chooseAuth a
  | select index =>
    match w.selectKey index with
    | .ok w => w
    | .error _ => w

/-- What an edit of the security is to WEP. -/
def ofEdit? : Edit → Option Touch
  | .secret e => some (secret e)
  | .wepAuth a => some (auth a)
  | .wepKey index => some (select index)
  | _ => none

/-- The touch decides anew what a slot of the stash holds: its key is shown, or all are read. -/
def handles (i : Nat) : Touch → Bool
  | loadSecrets p => p.wirelessSecurity.isSome
  | select index => index == i
  | _ => false

end Touch

/-- The wrapper after touches in order. -/
def run (w : Wep) (touches : List Touch) : Wep := touches.foldl Touch.on w

theorem run_append (w : Wep) (touches more : List Touch) :
    w.run (touches ++ more) = (w.run touches).run more := List.foldl_append

/-- A touch puts a text out of sight into a slot. -/
inductive Stows (w : Wep) : Touch → Nat → String → Prop
  | select (index : Nat) (hindex : index < wepKeyCount) (hother : index ≠ w.index) :
      Stows w (.select index) w.index w.control.text
  | loadSecrets (p : Profile) (s : WirelessSecurity) (i : Nat) (key : String)
      (hp : p.wirelessSecurity = some s) (hkey : s.wepKey i = some key) (hother : i ≠ w.index) :
      Stows w (.loadSecrets p) i key

/-! ## One touch -/

theorem stash_showKey (w : Wep) (index : Fin wepKeyCount) (i : Nat) :
    (w.showKey index).stash[i]? =
      if i = index then some "" else if i = w.index then some w.control.text else w.stash[i]? := by
  have hindex : index.val < wepKeyCount := index.isLt
  have hshown : w.index.val < wepKeyCount := w.index.isLt
  unfold showKey
  by_cases hi : i = index
  · subst hi
    simp
  · by_cases hi' : i = w.index
    · subst hi'
      simp [hi, Ne.symm hi]
    · simp [hi, hi', Ne.symm hi, Ne.symm hi']

theorem stash_loadSecrets {p : Profile} {s : WirelessSecurity} (hp : p.wirelessSecurity = some s)
    (w : Wep) (i : Nat) : (w.loadSecrets p).stash[i]? =
      if i = w.index then some "" else s.wepKeys[i]?.map (·.getD "") := by
  have hshown : w.index.val < wepKeyCount := w.index.isLt
  unfold loadSecrets
  rw [hp]
  by_cases hi : i = w.index
  · subst hi
    simp
  · simp [hi, Ne.symm hi]

theorem stash_select_iff (hshown : (wep w).ShownOnce) (hx : x ≠ "") (index : Nat) :
    (Touch.on w (.select index)).stash[i]? = some x ↔
      w.Stows (.select index) i x ∨ index ≠ i ∧ w.stash[i]? = some x := by
  have hblank : w.stash[w.index.val]? = some "" := hshown
  by_cases hindex : index < wepKeyCount
  · have hon : Touch.on w (.select index) = w.showKey ⟨index, hindex⟩ := by
      simp [Touch.on, selectKey, hindex]
    rw [hon, stash_showKey]
    by_cases hi : i = index
    · -- The key that is shown now is no longer in the stash.
      rw [if_pos hi]
      constructor
      · intro h
        exact absurd (Option.some.inj h).symm hx
      · rintro (h | ⟨hkept, -⟩)
        · cases h with
          | select _ _ hother => exact absurd hi.symm hother
        · exact absurd hi.symm hkept
    · rw [if_neg hi]
      by_cases hi' : i = w.index
      · subst hi'
        rw [if_pos rfl]
        constructor
        · intro h
          obtain rfl := Option.some.inj h
          exact .inl (.select index hindex (Ne.symm hi))
        · rintro (h | ⟨-, hold⟩)
          · cases h
            rfl
          · exact absurd (Option.some.inj (hold.symm.trans hblank)) hx
      · rw [if_neg hi']
        constructor
        · intro h
          exact .inr ⟨Ne.symm hi, h⟩
        · rintro (h | h)
          · cases h
            exact absurd rfl hi'
          · exact h.2
  · have hon : Touch.on w (.select index) = w := by
      simp [Touch.on, selectKey, hindex]
    rw [hon]
    constructor
    · intro h
      have hi : i < wepKeyCount := (Vector.getElem?_eq_some_iff.1 h).1
      exact .inr ⟨by omega, h⟩
    · rintro (h | h)
      · cases h with
        | select _ hlt _ => exact absurd hlt hindex
      · exact h.2

theorem stash_loadSecrets_iff (hx : x ≠ "") (p : Profile) :
    (Touch.on w (.loadSecrets p)).stash[i]? = some x ↔
      w.Stows (.loadSecrets p) i x ∨ p.wirelessSecurity = none ∧ w.stash[i]? = some x := by
  show (w.loadSecrets p).stash[i]? = some x ↔ _
  cases hp : p.wirelessSecurity with
  | none =>
      have hsame : w.loadSecrets p = w := by
        unfold loadSecrets
        rw [hp]
      rw [hsame]
      constructor
      · intro h
        exact .inr ⟨rfl, h⟩
      · rintro (h | h)
        · cases h with
          | loadSecrets _ s _ _ hs => cases hp.symm.trans hs
        · exact h.2
  | some s =>
      rw [stash_loadSecrets hp]
      by_cases hi : i = w.index
      · rw [if_pos hi]
        constructor
        · intro h
          exact absurd (Option.some.inj h).symm hx
        · rintro (h | h)
          · cases h with
            | loadSecrets _ _ _ _ _ _ hother => exact absurd hi hother
          · cases h.1
      · rw [if_neg hi]
        constructor
        · intro h
          obtain ⟨key, hkey, hx'⟩ := Option.map_eq_some_iff.1 h
          cases key with
          | none => exact absurd hx'.symm hx
          | some key =>
              obtain rfl : key = x := hx'
              exact .inl (.loadSecrets p s i key hp (by simp [WirelessSecurity.wepKey, hkey]) hi)
        · rintro (h | h)
          · cases h with
            | loadSecrets _ s' _ _ hs hkey =>
                obtain rfl : s = s' := Option.some.inj (hp.symm.trans hs)
                have hget : s.wepKeys[i]? = some (some x) := Option.join_eq_some_iff.1 hkey
                rw [hget]
                rfl
          · cases h.1

/-- **A text stands in the stash after a touch** if it is put there, or was there and is left
alone. -/
theorem stash_on_iff (hshown : (wep w).ShownOnce) (hx : x ≠ "") :
    (t.on w).stash[i]? = some x ↔
      w.Stows t i x ∨ t.handles i = false ∧ w.stash[i]? = some x := by
  -- What leaves the stash alone puts nothing into it.
  have hsame (hstash : (t.on w).stash = w.stash) (hkept : t.handles i = false)
      (hnot : ¬w.Stows t i x) : (t.on w).stash[i]? = some x ↔
        w.Stows t i x ∨ t.handles i = false ∧ w.stash[i]? = some x := by
    rw [hstash]
    exact ⟨fun h => .inr ⟨hkept, h⟩, fun h => (h.resolve_left hnot).2⟩
  cases t with
  | secret e => exact hsame rfl rfl nofun
  | auth a =>
      refine hsame ?_ rfl nofun
      show (w.chooseAuth a).stash = w.stash
      unfold chooseAuth
      split <;> rfl
  | select index =>
      rw [stash_select_iff hshown hx]
      simp [Touch.handles]
  | loadSecrets p =>
      rw [stash_loadSecrets_iff hx]
      simp [Touch.handles]

/-! ## Every run -/

theorem edit_wep (w : Wep) (fs : FileSystem) (session : Session) (waivers : Waiver.Table)
    (e : Edit) : ((wep w).edit fs session waivers e).2 =
      wep ((Touch.ofEdit? e).elim w (Touch.on w)) := by
  cases e with
  | wepKey index =>
      simp only [Security.edit, Touch.ofEdit?, Option.elim, Touch.on]
      cases w.selectKey index <;> rfl
  | _ => rfl

/-- A touch reads keys, or is an edit of the security. -/
theorem Touch.loadSecrets_or_edit (t : Touch) :
    (∃ p, t = .loadSecrets p) ∨ ∃ e, Touch.ofEdit? e = some t := by
  cases t with
  | loadSecrets p => exact .inl ⟨p, rfl⟩
  | secret e => exact .inr ⟨.secret e, rfl⟩
  | auth a => exact .inr ⟨.wepAuth a, rfl⟩
  | select index => exact .inr ⟨.wepKey index, rfl⟩

/-- The key that is shown is not in the stash, and under a policy that keeps no text it is empty. -/
structure Tidy (w : Wep) : Prop where
  shownOnce : (wep w).ShownOnce
  sound : w.control.Sound

theorem tidy_ofProfile (type : WepKeyType) (p : Profile) (session : Session) :
    (Wep.ofProfile type p session).Tidy := by
  have hmade : ofKind? (.wep type) p session {} = some (wep (.ofProfile type p session)) := rfl
  exact ⟨shownOnce_ofKind? hmade, (wellFormed_ofKind? hmade).sound⟩

theorem Tidy.on (h : w.Tidy) (t : Touch) : (t.on w).Tidy := by
  -- The session and the files play no part in what happens to WEP.
  let session : Session := ⟨"", false, .stored, false, .wireless⟩
  have hwell : (wep w).WellFormed (.wep w.keyType) session.medium w.adhoc := ⟨rfl, rfl, h.sound⟩
  rcases t.loadSecrets_or_edit with ⟨p, rfl⟩ | ⟨e, he⟩
  · exact ⟨h.shownOnce.loadSecrets p, (hwell.loadSecrets p).sound⟩
  · have hshown : ((wep w).edit (.blank []) session {} e).2.ShownOnce := h.shownOnce.edit e
    have hsound : ((wep w).edit (.blank []) session {} e).2.secret.Sound := (hwell.edit e).sound
    rw [edit_wep, he] at hshown hsound
    exact ⟨hshown, hsound⟩

theorem Tidy.run (h : w.Tidy) (touches : List Touch) : (w.run touches).Tidy := by
  induction touches generalizing w with
  | nil => exact h
  | cons t touches ih => exact ih (h.on t)

/-- A touch put a text out of sight into a slot, and nothing has handled the slot since. -/
def PutAway (w : Wep) (touches : List Touch) (i : Nat) (x : String) : Prop :=
  ∃ before t after, touches = before ++ t :: after ∧ (w.run before).Stows t i x ∧
    ∀ u ∈ after, u.handles i = false

theorem putAway_concat : w.PutAway (touches ++ [t]) i x ↔
    (w.run touches).Stows t i x ∨ t.handles i = false ∧ w.PutAway touches i x := by
  constructor
  · rintro ⟨before, u, after, heq, hstows, hkept⟩
    rcases List.eq_nil_or_concat after with rfl | ⟨after, v, rfl⟩
    · obtain ⟨rfl, hlast⟩ := List.append_inj' heq rfl
      obtain rfl := (List.cons.inj hlast).1
      exact .inl hstows
    · have heq : touches ++ [t] = (before ++ u :: after) ++ [v] := by
        rw [heq, List.concat_eq_append, List.append_assoc, List.cons_append]
      obtain ⟨rfl, hlast⟩ := List.append_inj' heq rfl
      obtain rfl := (List.cons.inj hlast).1
      rw [List.concat_eq_append, List.forall_mem_append] at hkept
      exact .inr ⟨hkept.2 _ List.mem_cons_self, before, u, after, rfl, hstows, hkept.1⟩
  · rintro (hstows | ⟨hkept, before, u, after, rfl, hstows, hafter⟩)
    · exact ⟨touches, t, [], rfl, hstows, fun u hu => by cases hu⟩
    · refine ⟨before, u, after ++ [t], ?_, hstows, ?_⟩
      · rw [List.append_assoc, List.cons_append]
      · rw [List.forall_mem_append]
        exact ⟨hafter, List.forall_mem_singleton.2 hkept⟩

/-- **What the stash holds**: what was put there and not handled since. -/
theorem stash_run_iff (h : w.Tidy) (hblank : w.stash = Vector.replicate wepKeyCount "")
    (hx : x ≠ "") : (w.run touches).stash[i]? = some x ↔ w.PutAway touches i x := by
  induction touches using List.reverseRecOn with
  | nil =>
      constructor
      · intro hi
        have hi : (Vector.replicate wepKeyCount "")[i]? = some x := hblank ▸ hi
        rw [Vector.getElem?_replicate] at hi
        split at hi
        · exact absurd (Option.some.inj hi).symm hx
        · cases hi
      · rintro ⟨before, t, after, heq, -⟩
        cases before <;> cases heq
  | append_singleton touches t ih =>
      rw [run_append, putAway_concat, ← ih]
      exact stash_on_iff (h.run touches).shownOnce hx

/-! ## Keys that are not saved -/

theorem stash_ofProfile (type : WepKeyType) (p : Profile) (session : Session) :
    (Wep.ofProfile type p session).stash = Vector.replicate wepKeyCount "" := by
  unfold ofProfile
  cases p.wirelessSecurity with
  | none => rfl
  | some s =>
      simp only
      split <;> rfl

theorem key?_eq_some_iff (h : w.Tidy) (hx : x ≠ "") : w.key? i = some x ↔
    i = w.index ∧ w.control.text = x ∨ w.stash[i]? = some x := by
  have hblank : w.stash[w.index.val]? = some "" := h.shownOnce
  by_cases hi : i = w.index
  · subst hi
    rw [key?_of_eq rfl, hblank]
    simp [Ne.symm hx]
  · rw [key?_of_ne hi]
    simp [hi]

/-- What is written for a key: its text, unless that is empty or the keys are not saved. -/
theorem wepKey?_write (w : Wep) (p : Profile) (i : Nat) : (w.write p).wepKey? i =
    if w.control.policy.keepsText then (w.key? i).filter (!·.isEmpty) else none := by
  rw [write_eq, wepKey?, wirelessSecurity_securedBy]
  show w.writtenKeys[i]?.join = _
  by_cases hi : i < wepKeyCount
  · rw [writtenKeys_get? hi]
    rfl
  · have hne : i ≠ w.index := fun h => hi (h ▸ w.index.isLt)
    rw [key?_of_ne hne, Vector.getElem?_eq_none (Nat.le_of_not_lt hi),
      Vector.getElem?_eq_none (Nat.le_of_not_lt hi)]
    simp

theorem wepKey?_write_eq_some_iff (hkept : w.control.policy.keepsText = true) (hx : x ≠ "")
    (p : Profile) : (w.write p).wepKey? i = some x ↔ w.key? i = some x := by
  rw [wepKey?_write, if_pos hkept, Option.filter_eq_some_iff]
  simp [hx]

/-- A policy that keeps texts leaves every key as it is. -/
theorem key?_choosePolicy {policy : Secret.Policy} (hkept : policy.keepsText = true) (i : Nat) :
    (Touch.on w (.secret (.policy policy))).key? i = w.key? i := by
  have hcontrol : w.control.setPolicy policy = { w.control with policy } := if_pos hkept
  unfold key?
  simp only [Touch.on, Secret.Control.edit, hcontrol]

/-- **WEP keys under the policy that saves nothing.** Take WEP that was made from a profile,
whatever has been done to it since. While its keys are not saved, the one that is shown is empty,
and none is written. Any other key reads as a text that is not empty exactly if the text was put
away in its slot and the slot was not handled since; a change of the policy does not count as
handling. So after a change to a policy that keeps texts each of these keys is read and written
again. -/
theorem keys_of_notSaved (type : WepKeyType) (p : Profile) (session : Session)
    (touches : List Touch) :
    let w₀ := Wep.ofProfile type p session
    let w := w₀.run touches
    w.control.policy = .notSaved →
      w.key? w.index = some "" ∧ (∀ q i, (w.write q).wepKey? i = none) ∧
      ∀ i x, x ≠ "" →
        (w.key? i = some x ↔ w₀.PutAway touches i x) ∧
        ∀ policy, policy ≠ .notSaved →
          let w' := Touch.on w (.secret (.policy policy))
          (w'.key? i = some x ↔ w₀.PutAway touches i x) ∧
          ∀ q, (w'.write q).wepKey? i = some x ↔ w₀.PutAway touches i x := by
  intro w₀ w hpolicy
  have htidy : w.Tidy := (tidy_ofProfile type p session).run touches
  have hkeeps : w.control.policy.keepsText = false := by
    rw [hpolicy]
    rfl
  have htext : w.control.text = "" := (htidy.sound hkeeps).1
  refine ⟨?_, ?_, ?_⟩
  · rw [key?_of_eq rfl, htext]
  · intro q i
    rw [wepKey?_write, hkeeps]
    rfl
  · intro i x hx
    have hstash : w.stash[i]? = some x ↔ w₀.PutAway touches i x :=
      stash_run_iff (tidy_ofProfile type p session) (stash_ofProfile type p session) hx
    have hkey : w.key? i = some x ↔ w₀.PutAway touches i x := by
      rw [key?_eq_some_iff htidy hx, htext, hstash]
      simp [Ne.symm hx]
    refine ⟨hkey, ?_⟩
    intro policy hsaved w'
    have hkept : policy.keepsText = true := Secret.Policy.keepsText_iff.2 hsaved
    have hkept' : w'.control.policy.keepsText = true := by
      show (w.control.setPolicy policy).policy.keepsText = true
      rw [Secret.Control.policy_setPolicy, hkept]
    refine ⟨?_, ?_⟩
    · rw [key?_choosePolicy hkept, hkey]
    · intro q
      rw [wepKey?_write_eq_some_iff hkept' hx, key?_choosePolicy hkept, hkey]

/-- WEP of a new network, to try things on. -/
def spare : Wep :=
  let p := Profile.newWireless "home" "uuid" "net"
  .ofProfile .key p (.forProfile p {} false)

/-- A key is typed, another one is shown, and then none is to be saved. -/
def typed : List Touch := [.secret (.text "abcde"), .select 1, .secret (.policy .notSaved)]

theorem putAway_typed : spare.PutAway typed 0 "abcde" := by
  refine ⟨[.secret (.text "abcde")], .select 1, [.secret (.policy .notSaved)], rfl, ?_, ?_⟩
  · exact .select 1 (by decide) (by decide)
  · intro u hu
    obtain rfl := List.mem_singleton.1 hu
    rfl

theorem keys_of_notSaved_typed :
    (spare.run typed).control.policy = .notSaved ∧ (spare.run typed).key? 1 = some "" ∧
      ((spare.run typed).write .blank).wepKey? 0 = none ∧
      ((Touch.on (spare.run typed) (.secret (.policy .stored))).write .blank).wepKey? 0 =
        some "abcde" := by
  have hkeys := keys_of_notSaved .key (Profile.newWireless "home" "uuid" "net")
    (.forProfile (Profile.newWireless "home" "uuid" "net") {} false) typed (by cbv)
  obtain ⟨hshown, hnone, hhidden⟩ := hkeys
  have hback := ((hhidden 0 "abcde" (by decide)).2 .stored (by decide)).2 .blank
  exact ⟨by cbv, hshown, hnone .blank 0, hback.2 putAway_typed⟩

/-- A profile whose keys are not saved, and that holds one all the same in a slot that is not
shown. -/
def leaky : Profile :=
  (Profile.newWireless "home" "uuid" "net").secureWith
    { keyMgmt := "none", wepKeys := #v[none, some "abcde", none, none], wepKeyFlags := .notSaved }

/-- Keys are not saved, but a key that was typed before can be read, and so can one that was loaded;
with another policy the loaded one is written as well. -/
theorem notSaved_keeps_hidden_keys :
    (spare.run typed).control.policy = .notSaved ∧
      (spare.run typed).key? 0 = some "abcde" ∧
      (spare.run [.loadSecrets leaky]).control.policy = .notSaved ∧
      (spare.run [.loadSecrets leaky]).key? 1 = some "abcde" ∧
      ((spare.run [.loadSecrets leaky, .secret (.policy .stored)]).write leaky).wepKey? 1 =
        some "abcde" := by
  refine ⟨?_, ?_, ?_, ?_, ?_⟩
  all_goals cbv

end Security.Wep

end ConnectionSecurity
