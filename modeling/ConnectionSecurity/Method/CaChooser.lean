import ConnectionSecurity.Session
import ConnectionSecurity.Waiver.Store

/-!
# The chooser of a CA certificate

The certificate that checks the server is chosen, or a box is ticked that says none is required. A
ticked box and a chosen file exclude each other as long as a user changes them; what is read from a
profile and a table of waivers may hold both.

Writing records the waiver: it is granted only if the box is ticked, nothing is chosen, and nothing
is wrong with what is chosen.
-/

namespace ConnectionSecurity.Method

/-- The chooser of a CA certificate for one phase. -/
structure CaChooser where
  path : Option Path := none
  notRequired : Bool := false
  phase : Phase
deriving DecidableEq, Repr

namespace CaChooser

def empty (phase : Phase) : CaChooser := { phase }

def ofSetting (a : Option Profile.Authentication) (phase : Phase) (session : Session)
    (waivers : Waiver.Table) : CaChooser where
  path := (a.bind fun a => (a.credentials phase).caCert).map (·.path)
  notRequired := waivers.isWaived session.uuid phase
  phase

/-- Choose a file, or none. A chosen file takes the tick away. -/
def choose (c : CaChooser) (path : Option Path) : CaChooser :=
  { c with path, notRequired := c.notRequired && path.isNone }

/-- Tick the box or take the tick away. A tick takes the chosen file away. -/
def tick (c : CaChooser) (notRequired : Bool) : CaChooser :=
  { c with path := if notRequired then none else c.path, notRequired }

/-- Check the chosen file. -/
def check (c : CaChooser) (fs : FileSystem) : Except Fault (Option Credential.Accepted) :=
  Credential.check fs c.path .ca none

/-- Check the chosen file. Without one there is a warning, unless the box is ticked. -/
def validate (c : CaChooser) (fs : FileSystem) : Except Fault Report := do
  match ← c.check fs with
  | some _ => return []
  | none => return if c.notRequired then [] else [.missingCaCertificate c.phase]

/-- Whether writing grants a waiver. -/
def waives (c : CaChooser) (fs : FileSystem) : Bool :=
  (c.check fs).isOk && c.path.isNone && c.notRequired

/-- The certificate that is written. A file with a fault is left out. -/
def reference (c : CaChooser) (fs : FileSystem) : Option Profile.FileRef :=
  match c.check fs with
  | .ok found => found.map .ofAccepted
  | .error _ => none

/-- Write the certificate, and the waiver of the connection. -/
def write (c : CaChooser) (fs : FileSystem) (session : Session)
    (state : Profile.Authentication × Waiver.Table) : Profile.Authentication × Waiver.Table :=
  (state.1.setCredentials c.phase { state.1.credentials c.phase with caCert := c.reference fs },
    state.2.decide session.uuid c.phase (c.waives fs))

end CaChooser

end ConnectionSecurity.Method
