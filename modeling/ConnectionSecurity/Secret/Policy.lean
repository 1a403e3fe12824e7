import ConnectionSecurity.Secret.Flags

/-!
# Where a secret is stored

The policy of a secret is what its two storage flags mean. Reading flags gives a policy, writing a
policy changes only those two flags, and reading back what was written gives the policy again.
-/

namespace ConnectionSecurity.Secret

/-- Where a secret is kept once the profile is saved. -/
inductive Policy where
  /-- In the profile. -/
  | stored
  /-- With an agent. -/
  | agentOwned
  /-- Nowhere: it is asked for every time. -/
  | notSaved
deriving DecidableEq, Repr, Inhabited

namespace Policy

/-- The policy that flags stand for; not saving wins over an agent. -/
def ofFlags (f : Flags) : Policy :=
  if f.contains Flags.notSaved then notSaved
  else if f.contains Flags.agentOwned then agentOwned
  else stored

/-- The storage flags of a policy. -/
def flags : Policy → Flags
  | stored => Flags.none
  | agentOwned => Flags.agentOwned
  | notSaved => Flags.notSaved

/-- Flags with their storage flags replaced by those of a policy. -/
def applyTo (p : Policy) (prior : Flags) : Flags := (prior.without Flags.storage).union p.flags

/-- Whether the text of a secret is kept under the policy. -/
def keepsText : Policy → Bool
  | notSaved => false
  | _ => true

def name : Policy → String
  | stored => "stored"
  | agentOwned => "agent-owned"
  | notSaved => "not-saved"

def ofName? : String → Option Policy
  | "stored" => some stored
  | "agent-owned" => some agentOwned
  | "not-saved" => some notSaved
  | _ => none

/-- All policies keep texts but the one that saves nothing. -/
theorem keepsText_iff {policy : Policy} : policy.keepsText = true ↔ policy ≠ notSaved := by
  cases policy <;> simp [keepsText]

@[simp] theorem ofName?_name (p : Policy) : ofName? p.name = some p := by cases p <;> rfl

@[simp] theorem ofFlags_flags (p : Policy) : ofFlags p.flags = p := by cases p <;> rfl

end Policy

end ConnectionSecurity.Secret
