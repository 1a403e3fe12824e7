import ConnectionSecurity.Proofs.Secret.Control

/-!
# The flags that a policy leaves

Of the thirty-two flags beside a secret two say where it is stored. `Policy.Merged` says what it
means that a policy was merged into flags: these two are set as the policy asks, never both of them,
and each of the others, whether it has a name or not, is as it was before. This leaves nothing open
(`Policy.Merged.unique`), and it is what applying a policy to flags does (`Policy.merged_applyTo`).
So the policy can be read back from them.
-/

namespace ConnectionSecurity.Secret

theorem Flags.contains_trans {f g k : Flags} (hfg : f.contains g = true)
    (hgk : g.contains k = true) : f.contains k = true := by
  have hg : f.bits &&& g.bits = g.bits := beq_iff_eq.1 hfg
  have hk : g.bits &&& k.bits = k.bits := beq_iff_eq.1 hgk
  refine beq_iff_eq.2 ?_
  calc f.bits &&& k.bits
    _ = f.bits &&& g.bits &&& k.bits := by rw [UInt32.and_assoc, hk]
    _ = k.bits := by rw [hg, hk]

/-- A flag is set if its bit is. -/
theorem Flags.contains_iff_getElem {f g : Flags} {i : Nat} (hi : i < 32)
    (hg : g.bits.toBitVec = BitVec.twoPow 32 i) :
    f.contains g = true ↔ f.bits.toBitVec[i] = true := by
  unfold contains
  rw [beq_iff_eq, ← UInt32.toBitVec_inj, UInt32.toBitVec_and, hg, BitVec.and_twoPow,
    BitVec.getLsbD_eq_getElem hi]
  split
  next hbit => exact iff_of_true rfl hbit
  next hbit =>
    refine iff_of_false (fun hzero => ?_) hbit
    have htwo := congrArg (BitVec.getLsbD · i) hzero
    simp [hi] at htwo

namespace Policy

/-- Flags are earlier ones with a policy merged into them. -/
structure Merged (policy : Policy) (prior flags : Flags) : Prop where
  agentOwned : flags.contains .agentOwned = true ↔ policy = .agentOwned
  notSaved : flags.contains .notSaved = true ↔ policy = .notSaved
  /-- The flags of the other bits are as they were. -/
  others : ∀ i : Nat, ∀ hi : i < 32, 2 ≤ i → flags.bits.toBitVec[i] = prior.bits.toBitVec[i]

variable {policy : Policy} {prior flags flags' : Flags}

/-- The storage flags are the lowest two bits. -/
theorem getElem_storage {i : Nat} (hi : i < 32) :
    Flags.storage.bits.toBitVec[i] = decide (i < 2) := by
  show (2 ^ 2 - 1 : Nat).testBit i = _
  exact Nat.testBit_two_pow_sub_one ..

/-- Those of a policy are among them. -/
theorem getElem_flags (policy : Policy) {i : Nat} (hi : i < 32) (h : 2 ≤ i) :
    policy.flags.bits.toBitVec[i] = false := by
  have hlt : policy.flags.bits.toNat < 2 ^ i := by
    have hfour : 2 ^ 2 ≤ 2 ^ i := Nat.pow_le_pow_right (by decide) h
    have hbits : policy.flags.bits.toNat < 2 ^ 2 := by cases policy <;> decide
    omega
  show policy.flags.bits.toNat.testBit i = false
  exact Nat.testBit_lt_two_pow hlt

/-- **A policy that is applied to flags is merged into them.** -/
theorem merged_applyTo (policy : Policy) (prior : Flags) :
    policy.Merged prior (policy.applyTo prior) := by
  refine ⟨?_, ?_, ?_⟩
  · rw [contains_applyTo policy prior (by decide)]
    cases policy <;> decide
  · rw [contains_applyTo policy prior (by decide)]
    cases policy <;> decide
  · intro i hi h
    have hpolicy := policy.getElem_flags hi h
    have hstorage := getElem_storage hi
    simp only [applyTo, Flags.bits_union, Flags.bits_without, UInt32.toBitVec_or,
      UInt32.toBitVec_and, UInt32.toBitVec_not, BitVec.getElem_or, BitVec.getElem_and,
      BitVec.getElem_not, hpolicy, hstorage]
    simp [Nat.not_lt_of_le h]

namespace Merged

/-- A merge leaves no bit open. -/
theorem unique (h : policy.Merged prior flags) (h' : policy.Merged prior flags') :
    flags = flags' := by
  have hbits : flags.bits.toBitVec = flags'.bits.toBitVec := by
    ext i hi
    match i with
    | 0 =>
        rw [Bool.eq_iff_iff, ← Flags.contains_iff_getElem (g := .agentOwned) hi rfl,
          ← Flags.contains_iff_getElem (g := .agentOwned) hi rfl, h.agentOwned, h'.agentOwned]
    | 1 =>
        rw [Bool.eq_iff_iff, ← Flags.contains_iff_getElem (g := .notSaved) hi rfl,
          ← Flags.contains_iff_getElem (g := .notSaved) hi rfl, h.notSaved, h'.notSaved]
    | i + 2 => rw [h.others _ hi (by omega), h'.others _ hi (by omega)]
  cases flags
  cases flags'
  exact congrArg Flags.mk (UInt32.toBitVec_inj.1 hbits)

/-- Never are both storage flags set. -/
theorem contains_storage (h : policy.Merged prior flags) :
    flags.contains Flags.storage = false := by
  rw [Bool.eq_false_iff]
  intro hboth
  have hagent := h.agentOwned.1 (Flags.contains_trans hboth (by decide))
  have hsaved := h.notSaved.1 (Flags.contains_trans hboth (by decide))
  cases hagent.symm.trans hsaved

/-- The policy can be read back. -/
theorem ofFlags_eq (h : policy.Merged prior flags) : ofFlags flags = policy := by
  unfold ofFlags
  split
  next hsaved => exact (h.notSaved.1 hsaved).symm
  next hsaved =>
    split
    next hagent => exact (h.agentOwned.1 hagent).symm
    next hagent =>
      rw [h.notSaved] at hsaved
      rw [h.agentOwned] at hagent
      cases policy with
      | stored => rfl
      | agentOwned => exact absurd rfl hagent
      | notSaved => exact absurd rfl hsaved

end Merged

end Policy

/-! ## The policy of a control that was filled -/

@[simp] theorem Control.policy_applyFlags (c : Control) (flags : Flags) :
    (c.applyFlags flags).policy = .ofFlags flags := c.policy_setPolicy _

/-- A control that was filled is under the policy of the flags, whatever it was under before. -/
@[simp] theorem Control.policy_load (c : Control) (text : Option String) (flags : Flags) :
    (c.load text flags).policy = .ofFlags flags := by
  cases text with
  | none => exact c.policy_applyFlags flags
  | some text => exact (policy_setText _ _).trans (c.policy_applyFlags flags)

end ConnectionSecurity.Secret
