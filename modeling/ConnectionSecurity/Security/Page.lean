import ConnectionSecurity.Failure
import ConnectionSecurity.Security.Basic

/-!
# The security page

A page is filled from a profile, edited, validated and saved. Its state says how far it has come:
every edit takes it back to editing, and only a validation or a save says that it is fit.

Saving validates first and writes nothing if there is a fault. It then writes the profile, decides
about the waivers of the connection in memory, and writes their row to the file.
-/

namespace ConnectionSecurity

/-- How far a page has come. -/
inductive PageState where
  /-- Nothing was loaded or chosen. -/
  | uninitialized
  | configured
  | editing
  | validated
  | invalid
  | saved
deriving DecidableEq, Repr

/-- The security page of a connection editor. -/
structure Page where
  session : Session
  store : Waiver.Store
  kind : SecurityKind := .none
  security : Option Security := none
  state : PageState := .uninitialized
deriving DecidableEq, Repr

namespace Page

def new (session : Session) (store : Waiver.Store) : Page := { session, store }

def menu (page : Page) : List SecurityKind := SecurityKind.menu page.session.medium

/-- Fill the page from a profile, secrets included. The row of the connection is read from the file
first; if that fails, the one in memory counts. -/
def load (page : Page) (fs : FileSystem) (p : Profile) : Page :=
  let store := match page.store.refresh fs page.session.uuid with
    | .ok (_, store) => store
    | .error _ => page.store
  let kind := SecurityKind.ofProfile p
  { page with
    store
    kind
    security := (Security.ofKind? kind p page.session store.table).map (·.loadSecrets p)
    state := .configured }

/-- The refusal of a menu that does not have an entry. -/
def refusal (page : Page) (kind : SecurityKind) : Refusal :=
  ⟨kind.label, page.session.medium.label ++ " security"⟩

/-- Choose a type of security, which starts from nothing. The type that is chosen already stays as it
is. -/
def select (page : Page) (kind : SecurityKind) (p : Profile) : Except Refusal Page :=
  if page.menu.contains kind = false then .error (page.refusal kind)
  else if kind = page.kind ∧ page.state ≠ .uninitialized then .ok page
  else .ok { page with
    kind
    security := Security.ofKind? kind p.clearSecurity page.session page.store.table
    state := .configured }

/-! ## Editing -/

/-- Take the security out for editing. A page without security has nothing to edit. -/
def touch (page : Page) : Page :=
  if page.security.isSome then { page with state := .editing } else page

/-- Edit the security. The page goes back to editing even if the edit does not suit. -/
def edit (page : Page) (fs : FileSystem) (e : Security.Edit) : Method.Outcome × Page :=
  match page.security with
  | none => (.notApplicable, page)
  | some s =>
    let (outcome, s) := s.edit fs page.session page.store.table e
    (outcome, { page with security := some s, state := .editing })

def loadSecrets (page : Page) (p : Profile) : Page :=
  { page.touch with security := page.security.map (·.loadSecrets p) }

/-! ## Validating and saving -/

/-- What can be said against saving into a profile: a network needs a name, and one without an access
point not every type of security will do for. -/
def check (page : Page) (fs : FileSystem) (p : Profile) : Except Fault Report :=
  if p.isWireless && p.ssid.isNone then .error .missingSsid
  else if p.isAdhoc && !page.kind.suitsAdhoc then .error (.adhocIncompatible page.kind.label)
  else
    match page.security with
    | some s => s.validate fs
    | none => .ok []

/-- Check the page and remember the outcome. -/
def validate (page : Page) (fs : FileSystem) (p : Profile) : Except Fault Report × Page :=
  match page.check fs p with
  | .ok report => (.ok report, { page with state := .validated })
  | .error fault => (.error fault, { page with state := .invalid })

/-- Write the security into a profile, and the waivers of the connection into memory. -/
def write (page : Page) (fs : FileSystem) (p : Profile) : Profile × Page :=
  match page.security with
  | none => (p.clearSecurity, page)
  | some s =>
    let (p, table) := s.write fs page.session p page.store.table
    (p, { page with store := { page.store with table } })

/-- What a save leaves behind. -/
structure Saved where
  result : Except SaveError Report
  page : Page
  profile : Profile
  fs : FileSystem

/-- Validate, write, and put the row of the connection into the file. -/
def save (page : Page) (fs : FileSystem) (p : Profile) : Saved :=
  match page.validate fs p with
  | (.error fault, page) => ⟨.error (.fault fault), page, p, fs⟩
  | (.ok report, page) =>
    let (p, page) := page.write fs p
    match page.store.persist fs page.session.uuid with
    | (.error e, fs) => ⟨.error (.waiver e), page, p, fs⟩
    | (.ok (), fs) => ⟨.ok report, { page with state := .saved }, p, fs⟩

end Page

end ConnectionSecurity
