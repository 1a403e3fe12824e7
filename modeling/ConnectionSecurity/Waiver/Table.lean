import ConnectionSecurity.Credential.Basic
import ConnectionSecurity.Toml.Printer
import ConnectionSecurity.Toml.Record

/-!
# Waived checks

A user may decide that the certificate of a server is not checked. The decision belongs to a
connection and a phase and is kept outside the profile, in a table with one row for each connection.
The rows stand in the order of their names.
-/

namespace ConnectionSecurity.Waiver

/-- Which checks a connection waives. -/
structure Row where
  outer : Bool := false
  inner : Bool := false
deriving DecidableEq, Repr, Inhabited

namespace Row

def get (r : Row) : Phase → Bool
  | .outer => r.outer
  | .inner => r.inner

def set (r : Row) (phase : Phase) (waived : Bool) : Row :=
  match phase with
  | .outer => { r with outer := waived }
  | .inner => { r with inner := waived }

@[simp] theorem get_set_self (r : Row) (ph : Phase) (b : Bool) : (r.set ph b).get ph = b := by
  cases ph <;> rfl

theorem get_set_of_ne (r : Row) {ph ph' : Phase} (b : Bool) (h : ph' ≠ ph) :
    (r.set ph b).get ph' = r.get ph' := by
  cases ph <;> cases ph' <;> first | rfl | exact absurd rfl h

end Row

/-- Rows by the name of their connection, in ascending order. -/
structure Table where
  rows : List (String × Row) := []
deriving DecidableEq, Repr, Inhabited

namespace Table

def row? (t : Table) (uuid : String) : Option Row := t.rows.lookup uuid

/-- The row of a connection; without one no check is waived. -/
def row (t : Table) (uuid : String) : Row := (t.row? uuid).getD {}

/-- Put a row among rows in ascending order. -/
def putInto (uuid : String) (r : Row) : List (String × Row) → List (String × Row)
  | [] => [(uuid, r)]
  | (u, old) :: rest =>
    if uuid = u then (uuid, r) :: rest
    else if uuid < u then (uuid, r) :: (u, old) :: rest
    else (u, old) :: putInto uuid r rest

def put (t : Table) (uuid : String) (r : Row) : Table := ⟨putInto uuid r t.rows⟩

/-- Whether a connection waives the check of a phase. -/
def isWaived (t : Table) (uuid : String) (phase : Phase) : Bool := (t.row uuid).get phase

/-- Decide about the check of a phase of a connection. -/
def decide (t : Table) (uuid : String) (phase : Phase) (waived : Bool) : Table :=
  t.put uuid ((t.row uuid).set phase waived)

theorem lookup_putInto (uuid u : String) (r : Row) (rows : List (String × Row)) :
    (putInto uuid r rows).lookup u = if u = uuid then some r else rows.lookup u := by
  induction rows with
  | nil =>
    by_cases h : u = uuid
    · simp [putInto, h]
    · simp [putInto, h, List.lookup_cons, beq_eq_false_iff_ne.2 h]
  | cons entry rest ih =>
    obtain ⟨v, old⟩ := entry
    simp only [putInto]
    split
    · next huv =>
      subst huv
      by_cases h : u = uuid <;> simp [List.lookup_cons, h, beq_eq_false_iff_ne.2]
    · next huv =>
      split
      · by_cases h : u = uuid <;> simp [List.lookup_cons, h, beq_eq_false_iff_ne.2]
      · by_cases h : u = v
        · simp [h, Ne.symm huv]
        · simp [List.lookup_cons, beq_eq_false_iff_ne.2 h, ih]

/-- A table holds the row that was put into it and all others as before. -/
@[simp] theorem row?_put (t : Table) (uuid u : String) (r : Row) :
    (t.put uuid r).row? u = if u = uuid then some r else t.row? u :=
  lookup_putInto uuid u r t.rows

/-! ## As a document -/

/-- A row as a value. Both decisions are written. -/
def rowValue (r : Row) : Toml.Value :=
  .ofFields [("ignore-ca-cert", some (.boolean r.outer)),
    ("ignore-phase2-ca-cert", some (.boolean r.inner))]

/-- The row that a value describes. -/
def ofRowValue? (v : Toml.Value) : Option Row := do
  let r ← Toml.Fields.of? v
  return {
    outer := ← r.withDefault 0 "ignore-ca-cert" Toml.Value.boolean? false
    inner := ← r.withDefault 1 "ignore-phase2-ca-cert" Toml.Value.boolean? false }

/-- The table that the rows of a document describe. -/
def ofRows? : Toml.Value → Option Table
  | .table entries =>
    entries.foldlM (fun t (uuid, v) => (ofRowValue? v).map fun r => t.put uuid r) {}
  | _ => none

def parse? (text : String) : Option Table := do
  let entries ← Toml.read? text
  (Toml.Fields.named entries).withDefault 0 "connections" ofRows? {}

def print (t : Table) : String :=
  Toml.print [("connections", .table (t.rows.map fun (uuid, r) => (uuid, rowValue r)))]

end Table

end ConnectionSecurity.Waiver
