import ConnectionSecurity.Proofs.FileSystem.Seat
import ConnectionSecurity.Proofs.Waiver.Table
import ConnectionSecurity.Waiver.Store

/-!
# What one step of a store does

One equation for each way in which a store meets its file. Reading brings the row of one connection
into memory, and only if the file can be read (`refresh_eq`). Writing starts with reading: only the
row of one connection is put among the rows that the file has (`persist_eq`). A store without a file
has nothing to meet.
-/

namespace ConnectionSecurity.Waiver

variable {fs : FileSystem} {path : Path} {t : Table}

/-! ## The file -/

theorem readTable_of_not_pathExists (h : fs.pathExists path = false) :
    readTable fs path = .ok {} := by
  rw [readTable, h]
  rfl

theorem readTable_of_readText {text : String} (h : fs.readText path = .ok text) :
    readTable fs path = match Table.parse? text with
      | some t => .ok t
      | none => .error (.invalidFormat path) := by
  obtain ⟨content, hcontent, -⟩ := FileSystem.readText_eq_ok.1 h
  obtain ⟨node, hnode, -⟩ := Except.bind_eq_ok.1 hcontent
  have hthere : fs.pathExists path = true := by
    rw [FileSystem.pathExists, hnode]
    rfl
  rw [readTable, hthere, h]
  show (match Table.parse? text with
    | some t => pure t
    | none => throw (StoreError.invalidFormat path)) = _
  cases Table.parse? text with
  | none => rfl
  | some t => rfl

/-- What a table is read from: nothing at all, or a text with a table in it. -/
theorem readTable_eq_ok : readTable fs path = .ok t ↔
    fs.pathExists path = false ∧ t = {} ∨
      ∃ text, fs.readText path = .ok text ∧ Table.parse? text = some t := by
  constructor
  · intro h
    cases hthere : fs.pathExists path with
    | false =>
        rw [readTable_of_not_pathExists hthere] at h
        exact .inl ⟨rfl, (Except.ok.inj h).symm⟩
    | true =>
        have hread := h
        rw [readTable, hthere] at hread
        obtain ⟨text, htext, -⟩ := Except.bind_eq_ok.1 hread
        have htext := Except.mapError_eq_ok.1 htext
        rw [readTable_of_readText htext] at h
        refine .inr ⟨text, htext, ?_⟩
        cases hparse : Table.parse? text with
        | none => simp [hparse] at h
        | some found => simpa [hparse] using h
  · rintro (⟨hthere, rfl⟩ | ⟨text, htext, hparse⟩)
    · exact readTable_of_not_pathExists hthere
    · rw [readTable_of_readText htext, hparse]

end ConnectionSecurity.Waiver

namespace ConnectionSecurity.Waiver.Store

variable {s s' : Store} {fs : FileSystem} {path : Path} {uuid : String} {r : Row}

theorem openFile_eq (fs : FileSystem) (path : Path) :
    openFile fs path = (readTable fs path).map fun t => { table := t, path := some path } := by
  unfold openFile
  cases readTable fs path <;> rfl

/-! ## Reading -/

theorem refresh_of_path_eq_none (h : s.path = none) (fs : FileSystem) (uuid : String) :
    s.refresh fs uuid = .ok (s.table.row uuid, s) := by
  rw [refresh, h]

theorem refresh_eq (h : s.path = some path) (fs : FileSystem) (uuid : String) :
    s.refresh fs uuid = (readTable fs path).map fun t =>
      (t.row uuid, { s with table := s.table.put uuid (t.row uuid) }) := by
  rw [refresh, h]
  cases hread : readTable fs path with
  | error e => simp only [hread]; rfl
  | ok t => simp only [hread]; rfl

/-- The row of a connection that is persisted, unless the file cannot be read. A store without a
file has nothing but its memory. -/
def persisted? (s : Store) (fs : FileSystem) (uuid : String) : Option Row :=
  match s.path with
  | none => some (s.table.row uuid)
  | some path => (readTable fs path).toOption.map (·.row uuid)

theorem persisted?_eq_none : s.persisted? fs uuid = none ↔
    ∃ path e, s.path = some path ∧ readTable fs path = .error e := by
  unfold persisted?
  cases s.path with
  | none => simp
  | some path =>
      cases hread : readTable fs path with
      | error e => simp [Except.toOption, hread]
      | ok t => simp [Except.toOption, hread]

/-! ## Writing -/

theorem persist_of_path_eq_none (h : s.path = none) (fs : FileSystem) (uuid : String) :
    s.persist fs uuid = (.ok (), fs) := by
  rw [persist, h]

theorem persist_of_row?_eq_none (h : s.table.row? uuid = none) (fs : FileSystem) :
    s.persist fs uuid = (.ok (), fs) := by
  unfold persist
  rw [h]
  cases s.path <;> rfl

theorem persist_eq (h : s.path = some path) (hrow : s.table.row? uuid = some r)
    (fs : FileSystem) : s.persist fs uuid =
      match readTable fs path with
      | .error e => (.error e, fs)
      | .ok t => writeTable fs path (t.put uuid r) := by
  rewrite [persist, h, hrow]
  cases hread : readTable fs path with
  | error e => simp only [hread]
  | ok t => simp only [hread]

end ConnectionSecurity.Waiver.Store
