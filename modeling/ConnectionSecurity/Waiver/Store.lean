import ConnectionSecurity.FileSystem.Operations
import ConnectionSecurity.Waiver.Table

/-!
# A table and its file

A store keeps a table in memory and may have a file behind it. Decisions are made in memory; one
row at a time is written to the file, where the rows of other connections stay, or read from it. A
store without a file has nothing to write or to read.

A pool holds several stores at once. A handle names the store it opened; a copied handle names the
same store.
-/

namespace ConnectionSecurity.Waiver

/-- Why the file of a store cannot be used. -/
inductive StoreError where
  | readFailed (path : Path) (details : String)
  | writeFailed (path : Path) (details : String)
  /-- The file is not a document with a table in it. -/
  | invalidFormat (path : Path)
deriving DecidableEq, Repr

def StoreError.message : StoreError → String
  | readFailed path details => "failed to read CA-ignore store '" ++ path ++ "': " ++ details
  | writeFailed path details => "failed to write CA-ignore store '" ++ path ++ "': " ++ details
  | invalidFormat path => "invalid CA-ignore store '" ++ path ++ "'"

/-! ## The file -/

/-- The table in a file. A file that is missing holds an empty one. -/
def readTable (fs : FileSystem) (path : Path) : Except StoreError Table := do
  if !fs.pathExists path then return {}
  let text ← (fs.readText path).mapError fun e => .readFailed path e.message
  match Table.parse? text with
  | some t => return t
  | none => throw (.invalidFormat path)

/-- The file that a table is written to before it takes the place of the old one. -/
def stagingPath (path : Path) : Path := path.withExtension "toml.tmp"

/-- Write a table to a file, by way of a staging file. The directory is made if it is missing. -/
def writeTable (fs : FileSystem) (path : Path) (t : Table) : Except StoreError Unit × FileSystem :=
  let failed (e : IoError) : Except StoreError Unit := .error (.writeFailed path e.message)
  let (made, fs) := match path.parent? with
    | some dir => fs.createDirectories dir
    | none => (.ok (), fs)
  match made with
  | .error e => (failed e, fs)
  | .ok () =>
    match fs.writeText (stagingPath path) t.print with
    | .error e => (failed e, fs)
    | .ok fs =>
      match fs.rename (stagingPath path) path with
      | .error e => (failed e, fs)
      | .ok fs => (.ok (), fs)

/-! ## Stores -/

/-- A table in memory and the file behind it. -/
structure Store where
  table : Table := {}
  path : Option Path := none
deriving DecidableEq, Repr, Inhabited

namespace Store

def inMemory : Store := {}

def openFile (fs : FileSystem) (path : Path) : Except StoreError Store := do
  return { table := ← readTable fs path, path := some path }

/-- Decide about the check of a phase, in memory. -/
def decide (s : Store) (uuid : String) (phase : Phase) (waived : Bool) : Store :=
  { s with table := s.table.decide uuid phase waived }

/-- Write the row of a connection to the file, if there are a file and a row. -/
def persist (s : Store) (fs : FileSystem) (uuid : String) : Except StoreError Unit × FileSystem :=
  match s.path, s.table.row? uuid with
  | some path, some r =>
    match readTable fs path with
    | .error e => (.error e, fs)
    | .ok t => writeTable fs path (t.put uuid r)
  | _, _ => (.ok (), fs)

/-- Read the row of a connection from the file into memory. A connection without a row gets one
that waives nothing. -/
def refresh (s : Store) (fs : FileSystem) (uuid : String) : Except StoreError (Row × Store) :=
  match s.path with
  | none => .ok (s.table.row uuid, s)
  | some path => do
    let r := (← readTable fs path).row uuid
    return (r, { s with table := s.table.put uuid r })

end Store

/-! ## Several stores at once -/

/-- Stores, and the handles that name them. -/
structure Pool where
  stores : Array Store := #[]
  /-- For each handle the number of its store. -/
  handles : Array Nat := #[]
deriving Repr, Inhabited

namespace Pool

def store? (p : Pool) (handle : Nat) : Option Store := p.handles[handle]?.bind (p.stores[·]?)

def add (p : Pool) (s : Store) : Pool := ⟨p.stores.push s, p.handles.push p.stores.size⟩

/-- Add a handle for the store that another one names. -/
def copy (p : Pool) (handle : Nat) : Pool :=
  { p with handles := p.handles.push (p.handles[handle]?.getD p.stores.size) }

def replace (p : Pool) (handle : Nat) (s : Store) : Pool :=
  { p with stores := p.stores.setIfInBounds (p.handles[handle]?.getD p.stores.size) s }

end Pool

end ConnectionSecurity.Waiver
