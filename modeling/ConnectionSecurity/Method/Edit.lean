import ConnectionSecurity.Method.Menu

/-!
# Edits of a method

What a user can do to a method, as a value. Some edits suit every method, some only those that have
the field in question; one that does not suit leaves the method as it is.
-/

namespace ConnectionSecurity

namespace Method

/-- Something a user does to a method. -/
inductive Edit where
  /-- Enter the user name, or the identity for TLS. -/
  | username (v : String)
  /-- Do something to the control of the leaf's secret. -/
  | secret (e : Secret.Control.Edit)
  | ca (path : Option Path)
  | caNotRequired (b : Bool)
  | clientCert (path : Option Path)
  | privateKey (path : Option Path)
  /-- Choose from the menu of a tunnel. -/
  | selectInner (entry : InnerKind)
  | anonymousIdentity (v : String)
  | domainSuffix (v : String)
  | peapVersion (v : PeapVersion)
  | pacFile (path : Option Path)
  | provisioning (v : Provisioning)
  /-- Put a new TLS method into a tunnel, which no menu offers. -/
  | innerTls (policy : Secret.Policy)
  /-- Edit the method inside a tunnel. -/
  | inner (e : Edit)
deriving DecidableEq, Repr

/-- How an edit went. -/
inductive Outcome where
  | done
  | refused (r : Refusal)
  /-- A key was chosen; anybody may be able to open it. -/
  | keyChosen (w : Option Warning)
  /-- The method has nothing that the edit could change. -/
  | notApplicable
deriving DecidableEq, Repr

/-- Choose from the menu of a tunnel. What was typed is kept, and so is all else of the tunnel. -/
def Shell.selectInner (t : Shell) (inner : AuthMethod) (entry : InnerKind) (session : Session) :
    Except Refusal (Shell × AuthMethod) := do
  return ({ t with innerKind := entry }, ← switchInner t.kind inner entry session)

/-- Change the options of a tunnel, if it is of the right kind. -/
def Shell.onOptions (t : Shell) (f : TunnelOptions → Option TunnelOptions) : Option Shell :=
  (f t.options).map fun options => { t with options }

end Method

namespace AuthMethod

open Method

/-- Change the shell of a tunnel. -/
def onShell (f : Shell → Option Shell) (m : AuthMethod) : Outcome × AuthMethod :=
  match m with
  | tunnel t inner =>
    match f t with
    | some t => (.done, tunnel t inner)
    | none => (.notApplicable, m)
  | _ => (.notApplicable, m)

/-- Change the chooser of the CA certificate, if the method itself has one. -/
def onCa (f : CaChooser → CaChooser) (m : AuthMethod) : Outcome × AuthMethod :=
  match m with
  | tls t => (.done, tls { t with ca := f t.ca })
  | tunnel t inner => (.done, tunnel { t with ca := f t.ca } inner)
  | _ => (.notApplicable, m)

/-- The method after an edit, and how it went. -/
def edit (fs : FileSystem) (session : Session) (m : AuthMethod) : Edit → Outcome × AuthMethod
  | .username v => (.done, m.setUsername v)
  | .secret e => (.done, m.onSecret (·.edit e))
  | .ca path => m.onCa (·.choose path)
  | .caNotRequired b => m.onCa (·.tick b)
  | .clientCert path =>
    match m with
    | tls t => (.done, tls (t.chooseClientCert path))
    | _ => (.notApplicable, m)
  | .privateKey path =>
    match m with
    | tls t =>
      let (warning, t) := t.choosePrivateKey fs path
      (.keyChosen warning, tls t)
    | _ => (.notApplicable, m)
  | .selectInner entry =>
    match m with
    | tunnel t inner =>
      match t.selectInner inner entry session with
      | .ok (t, inner) => (.done, tunnel t inner)
      | .error r => (.refused r, m)
    | _ => (.notApplicable, m)
  | .anonymousIdentity v => m.onShell fun t => some { t with anonymousIdentity := v }
  | .domainSuffix v => m.onShell (·.onOptions fun
    | .ttls _ => some (.ttls v)
    | _ => none)
  | .peapVersion v => m.onShell (·.onOptions fun
    | .peap _ => some (.peap v)
    | _ => none)
  | .pacFile path => m.onShell (·.onOptions fun
    | .fast _ p => some (.fast path p)
    | _ => none)
  | .provisioning v => m.onShell (·.onOptions fun
    | .fast f _ => some (.fast f v)
    | _ => none)
  | .innerTls policy =>
    match m with
    | tunnel t _ => (.done, tunnel t (tls (.new .inner policy)))
    | _ => (.notApplicable, m)
  | .inner e =>
    match m with
    | tunnel t inner =>
      let (outcome, inner) := inner.edit fs session e
      (outcome, tunnel t inner)
    | _ => (.notApplicable, m)

end AuthMethod

end ConnectionSecurity
