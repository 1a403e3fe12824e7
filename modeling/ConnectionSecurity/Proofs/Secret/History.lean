import ConnectionSecurity.Proofs.Secret.Merge

/-!
# What the history of a control tells

The text of a control and its toggle are set by some of the edits, and the policy that saves nothing
takes both away. So of the edits that set one of them while texts are kept the last one counts
(`LastSets`), as long as there was no moment since at which the policy kept none (`keepsThrough`).
What was there before the edits counts only if none of them set or took anything (`Leaves`).

Text and toggle follow the same rule (`Follows`), and it holds after every run
(`Follows.leaves_iff`). The policy itself is the one that was chosen last (`policy_editAll`), so
nothing but the edits is needed to tell all of a control (`History`).
-/

namespace ConnectionSecurity.Secret.Control

variable {α : Type} {value : Control → α} {offer : Edit → Option α} {blank v : α}
  {c c' : Control} {e : Edit} {edits since : List Edit}

/-! ## What an edit asks for -/

/-- The text that an edit types or loads. -/
def Edit.text? : Edit → Option String
  | .text v => some v
  | .load t _ => t
  | _ => none

/-- Whether an edit asks to reveal or to hide the text. -/
def Edit.reveal? : Edit → Option Bool
  | .reveal b => some b
  | _ => none

/-- The policy that an edit chooses. -/
def Edit.policy? : Edit → Option Policy
  | .policy p => some p
  | .flags f => some (.ofFlags f)
  | .load _ f => some (.ofFlags f)
  | _ => none

theorem policy_edit_getD (c : Control) (e : Edit) :
    (c.edit e).policy = e.policy?.getD c.policy := by
  cases e with
  | text v => exact policy_setText c v
  | policy p => exact policy_setPolicy c p
  | reveal b => rfl
  | flags f => exact policy_applyFlags c f
  | load t f => exact policy_load c t f

/-- An edit that ends under a policy that keeps texts gives everything that it asks for. -/
theorem edit_of_kept (h : (c.edit e).policy.keepsText = true) :
    c.edit e = ⟨e.text?.getD c.text, e.policy?.getD c.policy, e.reveal?.getD c.revealed⟩ := by
  rw [policy_edit_getD] at h
  -- Each operation asks in its own way whether texts are kept, and here they always are.
  cases e with
  | text v => exact if_pos h
  | policy p => exact if_pos h
  | reveal b =>
      have h : c.policy.keepsText = true := h
      simp [edit, reveal, Edit.text?, Edit.policy?, Edit.reveal?, h]
  | flags f => exact if_pos h
  | load t f =>
      have hflags : c.applyFlags f = { c with policy := .ofFlags f } := if_pos h
      cases t with
      | none => exact hflags
      | some t =>
          show (c.applyFlags f).setText t = _
          rw [hflags]
          exact if_pos h

theorem editAll_append (c : Control) (past edits : List Edit) :
    c.editAll (past ++ edits) = (c.editAll past).editAll edits := List.foldl_append

theorem Sound.editAll (h : c.Sound) (edits : List Edit) : (c.editAll edits).Sound := by
  induction edits generalizing c with
  | nil => exact h
  | cons e edits ih => exact ih (h.edit e)

/-- The policy is the one that was chosen last. -/
theorem policy_editAll (c : Control) (edits : List Edit) :
    (c.editAll edits).policy = (edits.filterMap Edit.policy?).getLastD c.policy := by
  induction edits generalizing c with
  | nil => rfl
  | cons e edits ih =>
      show ((c.edit e).editAll edits).policy = _
      rw [ih, policy_edit_getD]
      cases hchosen : e.policy? with
      | none => rw [List.filterMap_cons_none hchosen, Option.getD_none]
      | some p => rw [List.filterMap_cons_some hchosen, List.getLastD_cons, Option.getD_some]

/-! ## What edits set -/

/-- The policy keeps texts at every moment of a run: at its start and after each of the edits. -/
def keepsThrough (c : Control) : List Edit → Bool
  | [] => c.policy.keepsText
  | e :: edits => c.policy.keepsText && (c.edit e).keepsThrough edits

/-- An edit sets what it offers if it is made under a policy that keeps texts. If the edit chooses
the policy as well, it is that policy which decides. -/
def Sets (offer : Edit → Option α) (c : Control) (e : Edit) (v : α) : Prop :=
  offer e = some v ∧ (c.edit e).policy.keepsText = true

/-- No edit of a run sets anything. -/
def NeverSets (offer : Edit → Option α) (c : Control) : List Edit → Prop
  | [] => True
  | e :: edits => (∀ v, ¬Sets offer c e v) ∧ NeverSets offer (c.edit e) edits

/-- The last edit of a run that sets something sets a value. After it comes a control, to which the
rest of the edits is made. -/
inductive LastSets (offer : Edit → Option α) :
    Control → List Edit → α → Control → List Edit → Prop where
  | here {c : Control} {e : Edit} {since : List Edit} {v : α} (hsets : Sets offer c e v)
      (hnever : NeverSets offer (c.edit e) since) :
      LastSets offer c (e :: since) v (c.edit e) since
  | later {c c' : Control} {e : Edit} {edits since : List Edit} {v : α}
      (hlast : LastSets offer (c.edit e) edits v c' since) :
      LastSets offer c (e :: edits) v c' since

/-- Either no edit sets anything, or one of them is the last. -/
theorem neverSets_or_lastSets (offer : Edit → Option α) (c : Control) (edits : List Edit) :
    NeverSets offer c edits ∨ ∃ v c' since, LastSets offer c edits v c' since := by
  induction edits generalizing c with
  | nil => exact .inl trivial
  | cons e edits ih =>
      rcases ih (c.edit e) with hnever | ⟨v, c', since, hlast⟩
      · by_cases hsets : ∃ v, Sets offer c e v
        · obtain ⟨v, hv⟩ := hsets
          exact .inr ⟨v, _, _, .here hv hnever⟩
        · exact .inl ⟨not_exists.1 hsets, hnever⟩
      · exact .inr ⟨v, c', since, .later hlast⟩

/-- What a run leaves of a value that its edits set. It was `start` before, and is `blank` where no
text is kept. -/
inductive Leaves (offer : Edit → Option α) (start blank : α) (c : Control) (edits : List Edit) :
    α → Prop where
  /-- It was set, and the policy has kept texts ever since. -/
  | kept {v : α} {c' : Control} {since : List Edit} (hlast : LastSets offer c edits v c' since)
      (hkeeps : c'.keepsThrough since = true) : Leaves offer start blank c edits v
  /-- It was set, but there was a moment since at which the policy kept no text. -/
  | taken {v : α} {c' : Control} {since : List Edit} (hlast : LastSets offer c edits v c' since)
      (hkeeps : c'.keepsThrough since = false) : Leaves offer start blank c edits blank
  /-- Nothing was set, and the policy has kept texts all the time. -/
  | untouched (hnever : NeverSets offer c edits) (hkeeps : c.keepsThrough edits = true) :
      Leaves offer start blank c edits start
  /-- Nothing was set, but there was a moment at which the policy kept no text. -/
  | erased (hnever : NeverSets offer c edits) (hkeeps : c.keepsThrough edits = false) :
      Leaves offer start blank c edits blank

/-! ## Values that follow the edits -/

/-- A value of controls that edits set while texts are kept. Otherwise it is blank. -/
structure Follows (value : Control → α) (offer : Edit → Option α) (blank : α) : Prop where
  of_kept : ∀ (c : Control) (e : Edit), (c.edit e).policy.keepsText = true →
    value (c.edit e) = (offer e).getD (value c)
  of_not_kept : ∀ c : Control, c.Sound → c.policy.keepsText = false → value c = blank

theorem follows_text : Follows text Edit.text? "" where
  of_kept _ _ h := congrArg text (edit_of_kept h)
  of_not_kept _ hsound h := (hsound h).1

theorem follows_revealed : Follows revealed Edit.reveal? false where
  of_kept _ _ h := congrArg revealed (edit_of_kept h)
  of_not_kept _ hsound h := (hsound h).2

theorem keepsText_of_keepsThrough (h : c.keepsThrough edits = true) :
    c.policy.keepsText = true := by
  cases edits with
  | nil => exact h
  | cons e edits => exact (Bool.and_eq_true_iff.1 h).1

namespace Follows

variable (h : Follows value offer blank)

include h

theorem eq_ite (hc : c.Sound) : value c = if c.policy.keepsText = true then value c else blank := by
  cases hkept : c.policy.keepsText with
  | true => rfl
  | false => exact h.of_not_kept c hc hkept

/-- Where nothing sets it, the value stays for as long as texts are kept. -/
theorem editAll_of_neverSets (hc : c.Sound) (hnever : NeverSets offer c edits) :
    value (c.editAll edits) = if c.keepsThrough edits = true then value c else blank := by
  induction edits generalizing c with
  | nil => exact h.eq_ite hc
  | cons e edits ih =>
      obtain ⟨hsets, hnever⟩ := hnever
      show value ((c.edit e).editAll edits) =
        if (c.policy.keepsText && (c.edit e).keepsThrough edits) = true then value c else blank
      rw [ih (hc.edit e) hnever]
      -- If the rest has a moment that blanks the value, it does not matter what this edit did.
      cases hrest : (c.edit e).keepsThrough edits with
      | false =>
          rw [Bool.and_false]
          rfl
      | true =>
          have hkept := keepsText_of_keepsThrough hrest
          have hnone : offer e = none :=
            Option.eq_none_iff_forall_ne_some.2 fun v hv => hsets v ⟨hv, hkept⟩
          rw [Bool.and_true, if_pos rfl, h.of_kept c e hkept, hnone]
          exact h.eq_ite hc

/-- What was set last stays for as long as texts are kept. -/
theorem editAll_of_lastSets (hc : c.Sound) (hlast : LastSets offer c edits v c' since) :
    value (c.editAll edits) = if c'.keepsThrough since = true then v else blank := by
  induction hlast with
  | @here c e since v hsets hnever =>
      obtain ⟨hoffer, hkept⟩ := hsets
      have hset : value (c.edit e) = v := by rw [h.of_kept c e hkept, hoffer, Option.getD_some]
      rw [← hset]
      exact h.editAll_of_neverSets (hc.edit e) hnever
  | later hlast ih => exact ih (hc.edit _)

/-- **A run leaves a value in one of four ways**, and each tells what it is. -/
theorem leaves_iff (hc : c.Sound) :
    value (c.editAll edits) = v ↔ Leaves offer (value c) blank c edits v := by
  constructor
  · rintro rfl
    rcases neverSets_or_lastSets offer c edits with hnever | ⟨v, c', since, hlast⟩
    · rw [h.editAll_of_neverSets hc hnever]
      cases hkeeps : c.keepsThrough edits with
      | true => exact .untouched hnever hkeeps
      | false => exact .erased hnever hkeeps
    · rw [h.editAll_of_lastSets hc hlast]
      cases hkeeps : c'.keepsThrough since with
      | true => exact .kept hlast hkeeps
      | false => exact .taken hlast hkeeps
  · intro hleaves
    cases hleaves with
    | kept hlast hkeeps => rw [h.editAll_of_lastSets hc hlast, if_pos hkeeps]
    | taken hlast hkeeps =>
        rw [h.editAll_of_lastSets hc hlast, hkeeps]
        rfl
    | untouched hnever hkeeps => rw [h.editAll_of_neverSets hc hnever, if_pos hkeeps]
    | erased hnever hkeeps =>
        rw [h.editAll_of_neverSets hc hnever, hkeeps]
        rfl

/-- A value that was blank at first ends as another one exactly if that was set last, and kept. -/
theorem eq_iff_lastSets (hc : c.Sound) (hstart : value c = blank) (hv : v ≠ blank) :
    value (c.editAll edits) = v ↔
      ∃ c' since, LastSets offer c edits v c' since ∧ c'.keepsThrough since = true := by
  rw [h.leaves_iff hc, hstart]
  constructor
  · intro hleaves
    cases hleaves with
    | kept hlast hkeeps => exact ⟨_, _, hlast, hkeeps⟩
    | _ => exact absurd rfl hv
  · rintro ⟨c', since, hlast, hkeeps⟩
    exact .kept hlast hkeeps

end Follows

/-! ## The history of a control -/

/-- What is known of a control by its history: it was made under a policy and had a past, and then
came some edits. -/
structure History (policy : Policy) (past edits : List Edit) (d : Control) : Prop where
  /-- The policy is the one that was chosen last. -/
  policy_eq : d.policy = ((past ++ edits).filterMap Edit.policy?).getLastD policy
  /-- The text is what the edits leave of the one there was before. -/
  text_eq_iff : ∀ t, d.text = t ↔
    Leaves Edit.text? ((empty policy).editAll past).text "" ((empty policy).editAll past) edits t
  /-- It is revealed if that was asked for last in its life, and texts have been kept ever since. -/
  revealed_iff : d.revealed = true ↔ ∃ c' since,
    LastSets Edit.reveal? (empty policy) (past ++ edits) true c' since ∧
      c'.keepsThrough since = true
  /-- Where nothing is saved there is nothing, and nothing is missing. -/
  of_notSaved : d.policy = .notSaved →
    d.text = "" ∧ d.revealed = false ∧ d.isSatisfied = true ∧ d.writtenText = none
  /-- Elsewhere a text is needed, and it is written. -/
  of_saved : d.policy ≠ .notSaved →
    (d.isSatisfied = true ↔ d.text ≠ "") ∧ ∀ t, d.writtenText = some t ↔ t = d.text ∧ d.text ≠ ""

/-- **Its history tells all of a control**, whatever was done to it before and since. -/
theorem history_editAll (policy : Policy) (past edits : List Edit) :
    History policy past edits (((empty policy).editAll past).editAll edits) := by
  have hpast : ((empty policy).editAll past).Sound := (sound_empty policy).editAll past
  refine ⟨?_, fun t => follows_text.leaves_iff hpast, ?_, fun hpolicy => ?_, fun hpolicy => ?_⟩
  · rw [← editAll_append]
    exact policy_editAll (empty policy) (past ++ edits)
  · -- Only the whole life tells who revealed the text: that may have been in the past.
    rw [← editAll_append]
    exact follows_revealed.eq_iff_lastSets (sound_empty policy) rfl Bool.noConfusion
  · have hkept := congrArg Policy.keepsText hpolicy
    obtain ⟨htext, hrevealed⟩ := hpast.editAll edits hkept
    exact ⟨htext, hrevealed, isSatisfied_of_not_kept hkept, writtenText_of_not_kept hkept⟩
  · have hkept := Policy.keepsText_iff.2 hpolicy
    exact ⟨isSatisfied_of_kept hkept, writtenText_of_kept hkept⟩

/-- What was taken away does not come back with the policy, nor does what was typed meanwhile. -/
example : (empty .stored).editAll [.text "kept", .reveal true, .policy .notSaved, .text "lost",
    .policy .agentOwned] = empty .agentOwned := by decide

end ConnectionSecurity.Secret.Control
