import ConnectionSecurity.Secret.Control

/-!
# Secrets, written and read back

Three facts about the control of a secret that everything built on it rests on.

* A policy that is merged into flags is the policy those flags stand for (`Policy.ofFlags_applyTo`),
  whatever the other thirty bits say.
* Under the policy that saves nothing a control is empty, after every edit (`Control.Sound`).
* What a control writes fills an empty control with the same text and policy
  (`Control.load_writtenText`). Only the reveal toggle is lost.

`Control.blotted` is a control as it looks to somebody who may not see its text. No operation lets
the text flow into what is left of it, so an edit of a blotted control tells what the edit does
(`Control.blotted_edit`).
-/

namespace ConnectionSecurity.Secret

/-! ## Merging a policy into flags -/

/-- Of the storage flags, a merge leaves those of the policy alone. -/
theorem Flags.merge_and_storage (prior k m : UInt32) (hm : m &&& 3 = m) :
    (prior &&& ~~~(3 : UInt32) ||| k) &&& m = k &&& m := by
  rw [← UInt32.toBitVec_inj] at *
  simp only [UInt32.toBitVec_and, UInt32.toBitVec_or, UInt32.toBitVec_not] at *
  rw [BitVec.and_or_distrib_right, BitVec.and_assoc, ← hm, BitVec.and_comm m.toBitVec,
    ← BitVec.and_assoc (~~~_)]
  simp

theorem Policy.contains_applyTo (p : Policy) (prior : Flags) {g : Flags}
    (hg : g.bits &&& 3 = g.bits) : (p.applyTo prior).contains g = p.flags.contains g := by
  simp only [Flags.contains, Policy.applyTo, Flags.bits_union, Flags.bits_without]
  rw [show Flags.storage.bits = 3 from rfl, Flags.merge_and_storage _ _ _ hg]

/-- The policy that is merged into flags is the one they stand for afterwards. -/
@[simp] theorem Policy.ofFlags_applyTo (p : Policy) (prior : Flags) :
    Policy.ofFlags (p.applyTo prior) = p := by
  have hsaved := p.contains_applyTo prior (g := Flags.notSaved) (by decide)
  have hagent := p.contains_applyTo prior (g := Flags.agentOwned) (by decide)
  rw [Policy.ofFlags, hsaved, hagent]
  exact Policy.ofFlags_flags p

/-- Merging the same policy again changes nothing. -/
@[simp] theorem Policy.applyTo_applyTo (p : Policy) (prior : Flags) :
    p.applyTo (p.applyTo prior) = p.applyTo prior := by
  have hk : p.flags.bits &&& ~~~(3 : UInt32) = 0 := by cases p <;> decide
  simp only [Policy.applyTo, Flags.union, Flags.without, Flags.storage, Flags.mk.injEq]
  rw [← UInt32.toBitVec_inj] at *
  simp only [UInt32.toBitVec_and, UInt32.toBitVec_or, UInt32.toBitVec_not] at *
  rw [BitVec.and_or_distrib_right, hk, BitVec.and_assoc]
  simp

namespace Control

variable {c d : Control}

/-! ## Nothing is held under a policy that keeps nothing -/

/-- Under a policy that keeps no text there is none, and nothing is revealed. -/
def Sound (c : Control) : Prop := c.policy.keepsText = false → c.text = "" ∧ c.revealed = false

theorem sound_empty (p : Policy) : (empty p).Sound := fun _ => ⟨rfl, rfl⟩

theorem Sound.setText (h : c.Sound) (t : String) : (c.setText t).Sound := by
  unfold Control.setText
  split
  next hk => exact fun hf => absurd (hk.symm.trans hf) (by simp)
  next => exact h

theorem sound_setPolicy (c : Control) (p : Policy) : (c.setPolicy p).Sound := by
  unfold setPolicy
  split
  next hk => exact fun hf => absurd (hk.symm.trans hf) (by simp)
  next => exact sound_empty p

theorem Sound.reveal (h : c.Sound) (b : Bool) : (c.reveal b).Sound := by
  intro hf
  have hf : c.policy.keepsText = false := hf
  exact ⟨(h hf).1, by simp [Control.reveal, hf]⟩

theorem sound_load (c : Control) (t : Option String) (f : Flags) : (c.load t f).Sound := by
  cases t with
  | none => exact sound_setPolicy _ _
  | some t => exact (sound_setPolicy _ _).setText t

/-- Every edit keeps a control sound. -/
theorem Sound.edit (h : c.Sound) (e : Edit) : (c.edit e).Sound := by
  cases e with
  | text v => exact h.setText v
  | policy p => exact sound_setPolicy c p
  | reveal b => exact h.reveal b
  | flags f => exact sound_setPolicy c _
  | load t f => exact sound_load c t f

/-! ## Reading back what was written -/

/-- The control with its text hidden. -/
def concealed (c : Control) : Control := { c with revealed := false }

@[simp] theorem policy_concealed (c : Control) : c.concealed.policy = c.policy := rfl

@[simp] theorem writtenText_concealed (c : Control) : c.concealed.writtenText = c.writtenText := rfl

theorem text_of_writtenText_eq_none (h : c.Sound) (hw : c.writtenText = none) : c.text = "" := by
  unfold writtenText at hw
  split at hw
  next => cases hw
  next hne =>
    cases hk : c.policy.keepsText with
    | false => exact (h hk).1
    | true => simpa [hk, isEmpty] using hne

theorem text_of_writtenText_eq_some {t : String} (hw : c.writtenText = some t) :
    c.policy.keepsText = true ∧ c.text = t := by
  unfold writtenText at hw
  split at hw
  next hk => exact ⟨(Bool.and_eq_true _ _ ▸ hk).1, Option.some.inj hw⟩
  next => cases hw

@[simp] theorem setPolicy_empty (p q : Policy) : (empty p).setPolicy q = empty q := by
  unfold setPolicy
  split <;> rfl

@[simp] theorem applyFlags_empty (p : Policy) (f : Flags) :
    (empty p).applyFlags f = empty (.ofFlags f) := setPolicy_empty p _

/-- An empty control that loads what another one wrote holds the same text under the same policy. -/
theorem load_writtenText (h : c.Sound) (hd : d.text = "") (hr : d.revealed = false)
    (prior : Flags) : d.load c.writtenText (c.policy.applyTo prior) = c.concealed := by
  -- The flags alone fill all but the text, whatever policy was there before.
  have hpolicy : d.applyFlags (c.policy.applyTo prior) = { c.concealed with text := "" } := by
    rw [applyFlags, Policy.ofFlags_applyTo, setPolicy]
    split
    · rw [concealed, ← hd, ← hr]
    · rfl
  cases hw : c.writtenText with
  | none =>
      rw [load, hpolicy, ← text_of_writtenText_eq_none h hw]
      rfl
  | some t =>
      obtain ⟨hk, rfl⟩ := text_of_writtenText_eq_some hw
      rw [load, hpolicy, setText]
      exact if_pos hk

/-- An empty text in place of a missing one makes no difference. -/
theorem load_getD_writtenText (h : c.Sound) (hd : d.text = "") (hr : d.revealed = false)
    (prior : Flags) :
    d.load (some (c.writtenText.getD "")) (c.policy.applyTo prior) = c.concealed := by
  have hload := load_writtenText h hd hr prior
  cases hw : c.writtenText with
  | some t => rwa [hw] at hload
  | none =>
      rw [hw] at hload
      have htext : c.text = "" := text_of_writtenText_eq_none h hw
      show (d.applyFlags _).setText "" = _
      rw [show d.applyFlags _ = c.concealed from hload, ← htext, setText]
      split <;> rfl

/-! ## Under a policy that keeps nothing -/

/-- Under a policy that keeps no text, a control has all it needs. -/
theorem isSatisfied_of_not_kept (h : c.policy.keepsText = false) : c.isSatisfied = true := by
  rw [isSatisfied, h]
  rfl

/-- Under a policy that keeps no text, there is none to write. -/
theorem writtenText_of_not_kept (h : c.policy.keepsText = false) : c.writtenText = none := by
  rw [writtenText, h]
  rfl

/-! ## Under a policy that keeps texts -/

/-- Under a policy that keeps texts, a control needs one. -/
theorem isSatisfied_of_kept (h : c.policy.keepsText = true) :
    c.isSatisfied = true ↔ c.text ≠ "" := by
  simp [isSatisfied, isEmpty, h]

/-- Under a policy that keeps texts, the text is written if there is one. -/
theorem writtenText_of_kept (h : c.policy.keepsText = true) (t : String) :
    c.writtenText = some t ↔ t = c.text ∧ c.text ≠ "" := by
  have hne : (true && !c.isEmpty) = true ↔ c.text ≠ "" := by simp [isEmpty]
  rw [writtenText, h, Option.ite_some_none_eq_some, hne, and_comm, eq_comm]

/-! ## A control without its text -/

/-- The control as it looks without its text. -/
def blotted (c : Control) : Control := { c with text := "" }

/-- The edit without the text that it types or loads. -/
def Edit.blotted : Edit → Edit
  | .text _ => .text ""
  | .load _ f => .load none f
  | e => e

@[simp] theorem policy_blotted (c : Control) : c.blotted.policy = c.policy := rfl

@[simp] theorem blotted_setText (c : Control) (t : String) : (c.setText t).blotted = c.blotted := by
  unfold setText; split <;> rfl

theorem blotted_setPolicy (c : Control) (p : Policy) :
    (c.setPolicy p).blotted = c.blotted.setPolicy p := by
  unfold setPolicy; split <;> rfl

@[simp] theorem blotted_load (c : Control) (t : Option String) (f : Flags) :
    (c.load t f).blotted = c.blotted.applyFlags f := by
  cases t with
  | none => exact blotted_setPolicy c _
  | some t => rw [load, blotted_setText]; exact blotted_setPolicy c _

/-- What is left of a control that was filled does not depend on the stored text. -/
theorem blotted_load_eq (c : Control) (t t' : Option String) (f : Flags) :
    (c.load t f).blotted = (c.blotted.load t' f).blotted := by
  rw [blotted_load, blotted_load]
  rfl

/-- What an edit does to a control, its text apart, depends on nothing but the rest of both. -/
theorem blotted_edit (c : Control) (e : Edit) :
    (c.edit e).blotted = (c.blotted.edit e.blotted).blotted := by
  cases e with
  | text v => simp only [edit, Edit.blotted, blotted_setText]; rfl
  | policy p => simp only [edit, Edit.blotted, blotted_setPolicy]; rfl
  | reveal b => rfl
  | flags f => simp only [edit, Edit.blotted, applyFlags, blotted_setPolicy]; rfl
  | load t f => simp only [edit, Edit.blotted, blotted_load]; rfl

end Control

end ConnectionSecurity.Secret
