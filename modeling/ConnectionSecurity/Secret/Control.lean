import ConnectionSecurity.Secret.Policy

/-!
# The control a secret is edited in

A control holds the text of a secret, its policy and whether the text is revealed. Under the policy
that saves nothing it holds no text and reveals nothing, whatever is done to it.
-/

namespace ConnectionSecurity.Secret

/-- A secret while it is edited. -/
structure Control where
  text : String := ""
  policy : Policy := .stored
  revealed : Bool := false
deriving DecidableEq, Repr, Inhabited

namespace Control

def empty (policy : Policy) : Control := { policy }

/-- Type a text. Nothing happens under a policy that keeps none. -/
def setText (c : Control) (text : String) : Control :=
  if c.policy.keepsText then { c with text } else c

/-- Choose a policy. One that keeps no text takes the text away and hides it. -/
def setPolicy (c : Control) (policy : Policy) : Control :=
  if policy.keepsText then { c with policy } else empty policy

/-- Ask to reveal or to hide the text. -/
def reveal (c : Control) (show? : Bool) : Control :=
  { c with revealed := show? && c.policy.keepsText }

/-- Choose the policy that stored flags stand for. -/
def applyFlags (c : Control) (flags : Flags) : Control := c.setPolicy (Policy.ofFlags flags)

/-- Fill the control from stored flags and, if there is one, a stored text. -/
def load (c : Control) (text : Option String) (flags : Flags) : Control :=
  match text with
  | some text => (c.applyFlags flags).setText text
  | none => c.applyFlags flags

/-! ## What the control says -/

/-- Whether there is no text. -/
def isEmpty (c : Control) : Bool := c.text.isEmpty

/-- Whether the control has all it needs: a text, if its policy keeps one. -/
def isSatisfied (c : Control) : Bool := !c.policy.keepsText || !c.isEmpty

/-- The text to write into a profile. -/
def writtenText (c : Control) : Option String :=
  if c.policy.keepsText && !c.isEmpty then some c.text else none

/-- The flags of the chosen policy. -/
def storageFlags (c : Control) : Flags := c.policy.flags

/-- The control in a log: whether there is a text can be seen, the text cannot. -/
def logText (c : Control) : String :=
  let shown := if c.isEmpty then "" else "<redacted>"
  let policy := match c.policy with
    | .stored => "Stored"
    | .agentOwned => "AgentOwned"
    | .notSaved => "NotSaved"
  "SecretEntry \x7b text: \"" ++ shown ++ "\", policy: " ++ policy ++ ", show: " ++
    (if c.revealed then "true" else "false") ++ " \x7d"

/-! ## Edits -/

/-- Something a user or a load does to a control. -/
inductive Edit where
  | text (v : String)
  | policy (p : Policy)
  | reveal (show? : Bool)
  | flags (f : Flags)
  | load (text : Option String) (f : Flags)
deriving DecidableEq, Repr

/-- The control after an edit. -/
def edit (c : Control) : Edit → Control
  | .text v => c.setText v
  | .policy p => c.setPolicy p
  | .reveal b => c.reveal b
  | .flags f => c.applyFlags f
  | .load t f => c.load t f

/-- The control after edits in order. -/
def editAll (c : Control) (edits : List Edit) : Control := edits.foldl edit c

/-! ## The policy after each operation -/

@[simp] theorem policy_setText (c : Control) (t : String) : (c.setText t).policy = c.policy := by
  unfold setText; split <;> rfl

@[simp] theorem policy_setPolicy (c : Control) (p : Policy) : (c.setPolicy p).policy = p := by
  unfold setPolicy; split <;> rfl

end Control

end ConnectionSecurity.Secret
