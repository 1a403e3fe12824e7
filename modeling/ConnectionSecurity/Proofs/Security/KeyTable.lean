import ConnectionSecurity.Proofs.Security.HiddenKey

/-!
# The WEP keys as a table with a cursor

The shown key is in a control and the others are in a stash, and every choice of another key moves
two texts. Read by their numbers, the keys are nevertheless a plain table of four texts with a
cursor (`Wep.table`): a text is typed under the cursor, a choice only moves the cursor, and reading
the keys of a profile replaces all four. The one thing to add is the policy: under one that keeps no
text, the cell under the cursor is blank after each of these (`KeyTable.settled`).

What happens to WEP happens to the table (`Wep.table_on`), so the table is known after every run
(`Wep.table_run`), and it says what is written (`Wep.setting_table`).
-/

namespace ConnectionSecurity.Security

open Profile Secret

/-! ## The table -/

/-- Four texts, one of them under the cursor, and the policy that they share. -/
structure KeyTable where
  cells : Vector String wepKeyCount
  cursor : Fin wepKeyCount
  policy : Policy
deriving DecidableEq, Repr

namespace KeyTable

/-- Put a text into the cell under the cursor. -/
def type (t : KeyTable) (text : String) : KeyTable :=
  { t with cells := t.cells.set t.cursor text }

/-- Under a policy that keeps no text, the cell under the cursor is blank. -/
def settled (t : KeyTable) : KeyTable := if t.policy.keepsText then t else t.type ""

/-- Four blank cells. -/
def blank (cursor : Fin wepKeyCount) (policy : Policy) : KeyTable :=
  ⟨Vector.replicate wepKeyCount "", cursor, policy⟩

/-- The table of WEP that was just made. A profile for WEP says which key is sent with, and the
cursor is on that key if there is one with the number. -/
def ofProfile (p : Profile) (session : Session) : KeyTable :=
  let first : Fin wepKeyCount := ⟨0, wepKeyCount_pos⟩
  match p.wirelessSecurity with
  | none => blank first session.defaultPolicy
  | some s =>
    if s.keyMgmt = "none" then
      let sent := s.wepTxKeyIndex.toNat
      blank (if h : sent < wepKeyCount then ⟨sent, h⟩ else first) (.ofFlags s.wepKeyFlags)
    else blank first session.defaultPolicy

/-- Do something to the cell under the cursor, or to the policy. -/
def edit (t : KeyTable) : Control.Edit → KeyTable
  | .text v => (t.type v).settled
  | .policy policy => { t with policy }.settled
  | .reveal _ => t
  | .flags f => { t with policy := .ofFlags f }.settled
  | .load none f => { t with policy := .ofFlags f }.settled
  | .load (some v) f => ({ t with policy := .ofFlags f }.type v).settled

/-- What happens to WEP, seen on the table. -/
def on (t : KeyTable) : Wep.Touch → KeyTable
  | .loadSecrets p =>
    match p.wirelessSecurity with
    | none => t
    | some s =>
      let cells := s.wepKeys.map (·.getD "")
      { t with cells, policy := .ofFlags s.wepKeyFlags }.settled
  | .secret e => t.edit e
  | .auth _ => t
  | .select index =>
    if h : index < wepKeyCount then { t with cursor := ⟨index, h⟩ }.settled else t

/-- The table after touches in order. -/
def run (t : KeyTable) (touches : List Wep.Touch) : KeyTable := touches.foldl on t

/-- The cell under the cursor is overwritten, so it does not matter what it held. -/
theorem type_settled (t : KeyTable) (text : String) : t.settled.type text = t.type text := by
  unfold settled
  split
  next => rfl
  next => simp [type]

end KeyTable

namespace Wep

variable {w : Wep}

theorem index_lt (w : Wep) : w.index.val < wepKeyCount := w.index.isLt

/-- The four keys by their numbers. -/
def table (w : Wep) : KeyTable :=
  ⟨w.stash.set w.index w.control.text w.index_lt, w.index, w.control.policy⟩

/-- Reading a key is reading its cell. -/
theorem key?_eq_cell (w : Wep) (i : Nat) : w.key? i = w.table.cells[i]? := by
  have hshown := w.index_lt
  by_cases hi : i = w.index
  · subst hi
    simp [key?_of_eq, table]
  · rw [key?_of_ne hi]
    simp [table, Ne.symm hi]

/-! ## One touch -/

/-- Under a new policy the keys stay, but for the shown one if the policy keeps no text. -/
theorem table_setPolicy (w : Wep) (policy : Policy) :
    table { w with control := w.control.setPolicy policy } = { w.table with policy }.settled := by
  unfold KeyTable.settled Control.setPolicy
  split
  next => rfl
  next => simp [table, KeyTable.type, Control.empty]

/-- A control that keeps no text is blank already, so typing makes no difference to it. -/
theorem table_setText (h : w.control.Sound) (v : String) :
    table { w with control := w.control.setText v } = (w.table.type v).settled := by
  have hpolicy : (w.table.type v).policy = w.control.policy := rfl
  unfold KeyTable.settled Control.setText
  rw [hpolicy]
  split
  next => simp [table, KeyTable.type]
  next hkeeps =>
    obtain ⟨hblank, -⟩ := h (Bool.eq_false_iff.2 hkeeps)
    simp [table, KeyTable.type, hblank]

theorem table_edit (h : w.control.Sound) (e : Control.Edit) :
    table { w with control := w.control.edit e } = w.table.edit e := by
  cases e with
  | text v => exact table_setText h v
  | policy p => exact table_setPolicy w p
  | reveal b => rfl
  | flags f => exact table_setPolicy w (.ofFlags f)
  | load text f =>
      cases text with
      | none => exact table_setPolicy w (.ofFlags f)
      | some v =>
          -- The policy is chosen first, and decides about the text.
          have hsound := Control.sound_setPolicy w.control (.ofFlags f)
          have htext := table_setText (w := { w with control := w.control.setPolicy (.ofFlags f) })
            hsound v
          rw [table_setPolicy, KeyTable.type_settled] at htext
          exact htext

theorem table_loadSecrets (h : w.control.Sound) (p : Profile) :
    (w.loadSecrets p).table = w.table.on (.loadSecrets p) := by
  cases hp : p.wirelessSecurity with
  | none => simp only [loadSecrets, KeyTable.on, hp]
  | some s =>
      simp only [loadSecrets, KeyTable.on, hp]
      generalize s.wepKeys.map (·.getD "") = keys
      -- The shown key is taken out of the keys and typed in again.
      refine (table_edit (w := { w with stash := keys.set w.index "" }) h
        (.load (some keys[w.index]) s.wepKeyFlags)).trans ?_
      simp [KeyTable.edit, KeyTable.type, table]

theorem table_select (h : w.control.Sound) (index : Nat) :
    (Touch.on w (.select index)).table = w.table.on (.select index) := by
  simp only [Touch.on, KeyTable.on, selectKey]
  by_cases hindex : index < wepKeyCount
  · rw [dif_pos hindex, dif_pos hindex]
    let hidden : Wep := { w with
      index := ⟨index, hindex⟩
      stash := (w.stash.set w.index w.control.text).set index "" }
    -- The key that is shown now is typed in again as well.
    refine (table_setText (w := hidden) h (w.stash.set w.index w.control.text)[index]).trans ?_
    simp [hidden, KeyTable.type, table]
  · rw [dif_neg hindex, dif_neg hindex]

/-- **What happens to WEP happens to the table.** -/
theorem table_on (h : w.control.Sound) (t : Touch) : (t.on w).table = w.table.on t := by
  cases t with
  | loadSecrets p => exact table_loadSecrets h p
  | secret e => exact table_edit h e
  | auth a =>
      show (w.chooseAuth a).table = w.table
      unfold chooseAuth
      split <;> rfl
  | select index => exact table_select h index

/-! ## Every run -/

theorem table_blank (w : Wep) (h : w.stash = Vector.replicate wepKeyCount "")
    (htext : w.control.text = "") : w.table = .blank w.index w.control.policy := by
  simp [table, KeyTable.blank, h, htext]

theorem table_ofProfile (type : WepKeyType) (p : Profile) (session : Session) :
    (Wep.ofProfile type p session).table = .ofProfile p session := by
  unfold ofProfile KeyTable.ofProfile
  cases p.wirelessSecurity with
  | none => exact table_blank _ rfl rfl
  | some s =>
      by_cases hmgmt : s.keyMgmt = "none"
      · simp only [if_pos hmgmt, Control.applyFlags_empty]
        exact table_blank _ rfl rfl
      · simp only [if_neg hmgmt]
        exact table_blank _ rfl rfl

theorem table_run (h : w.Tidy) (touches : List Touch) :
    (w.run touches).table = w.table.run touches := by
  induction touches generalizing w with
  | nil => rfl
  | cons t touches ih =>
      show ((t.on w).run touches).table = (w.table.on t).run touches
      rw [ih (h.on t), table_on h.sound]

/-- What is written of the table: the cursor, and every cell that holds a text, if it is kept. -/
theorem setting_table (w : Wep) (q : Profile) :
    (w.setting q).wepTxKeyIndex.toNat = w.table.cursor ∧ ∀ i, (w.setting q).wepKey i =
      if w.table.policy.keepsText then w.table.cells[i]?.filter (!·.isEmpty) else none := by
  refine ⟨w.wepTxKeyIndex_setting q, fun i => ?_⟩
  have hkey := wepKey?_write w q i
  rw [write_eq, wepKey?, wirelessSecurity_securedBy, key?_eq_cell] at hkey
  exact hkey

theorem exists_selectKey_iff {index : Nat} :
    (∃ w', w.selectKey index = .ok w') ↔ index < wepKeyCount := by
  unfold selectKey
  split
  next h => exact iff_of_true ⟨_, rfl⟩ h
  next h => exact iff_of_false nofun h

/-- **The WEP keys are a table with a cursor.** Take WEP that was made from a profile, whatever has
been done to it since, and the table to which the same was done. The key with a number is the cell
with the number, the shown one is under the cursor, and both have the same policy. A choice of
another key succeeds exactly for the four numbers. What is written into a profile is the cursor
and, under a policy that keeps texts, exactly the cells that are not empty. -/
theorem keys_run (type : WepKeyType) (p : Profile) (session : Session) (touches : List Touch) :
    let w := (Wep.ofProfile type p session).run touches
    let t := (KeyTable.ofProfile p session).run touches
    (w.index = t.cursor ∧ w.control.policy = t.policy ∧ ∀ i, w.key? i = t.cells[i]?) ∧
    (∀ index, (∃ w', w.selectKey index = .ok w') ↔ index < wepKeyCount) ∧
    ∀ q, ∃ s, (w.write q).wirelessSecurity = some s ∧ s.wepTxKeyIndex.toNat = t.cursor ∧
      ∀ i, s.wepKey i = if t.policy.keepsText then t.cells[i]?.filter (!·.isEmpty) else none := by
  intro w t
  have htable : w.table = t := by
    show ((Wep.ofProfile type p session).run touches).table = _
    rw [table_run (tidy_ofProfile type p session), table_ofProfile]
  rw [← htable]
  refine ⟨⟨rfl, rfl, w.key?_eq_cell⟩, fun index => exists_selectKey_iff, fun q => ?_⟩
  obtain ⟨hcursor, hcells⟩ := w.setting_table q
  refine ⟨w.setting q, ?_, hcursor, hcells⟩
  rw [write_eq, wirelessSecurity_securedBy]

/-- Without a setting of the network there is nothing to read, and what was typed stays. With one
whose keys are not saved, the shown key is not read either. -/
theorem keys_are_not_reread :
    let plain := Profile.newWireless "home" "uuid" "net"
    let kept := spare.run [.secret (.text "abcde"), .loadSecrets plain]
    let blank := spare.run [.select 1, .loadSecrets leaky]
    kept.key? 0 ≠ some ((plain.wepKey? 0).getD "") ∧
      blank.key? 1 ≠ some ((leaky.wepKey? 1).getD "") := by
  refine ⟨?_, ?_⟩
  · have hkept : (spare.run [.secret (.text "abcde"),
        .loadSecrets (Profile.newWireless "home" "uuid" "net")]).key? 0 = some "abcde" := by cbv
    rw [hkept]
    decide
  · have hblank : (spare.run [.select 1, .loadSecrets leaky]).key? 1 = some "" := by cbv
    rw [hblank]
    decide

end Wep

end ConnectionSecurity.Security
