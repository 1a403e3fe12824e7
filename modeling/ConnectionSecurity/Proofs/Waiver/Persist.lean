import ConnectionSecurity.Proofs.FileSystem.Growth
import ConnectionSecurity.Proofs.Waiver.Store

/-!
# Writing a table to its file

Before the new table takes the place of the old one, it is written to a staging file in the same
directory. So there are three ways to end (`written_writeTable`): nothing was written because there
is no room for the staging file; it was written but could not be renamed; or it was renamed.

Only the last one touches the file. The others leave new directories and the staging file, and
nothing else (`Store.kept_persist`). In particular the old table is still there: a path that can be
read can be renamed to, so a table that could not be renamed had no file before.
-/

namespace ConnectionSecurity.Waiver

variable {fs fs' : FileSystem} {path : Path} {t : Table} {e : StoreError}

/-- Make the directory of a table's file. -/
def makeRoom (fs : FileSystem) (path : Path) : Except IoError Unit × FileSystem :=
  match path.parent? with
  | some dir => fs.createDirectories dir
  | none => (.ok (), fs)

/-- The file system in which the staging file is written: the directory was made, as far as that is
possible. -/
def ground (fs : FileSystem) (path : Path) : FileSystem := (makeRoom fs path).2

theorem grows_ground (fs : FileSystem) (path : Path) : fs.Grows (ground fs path) := by
  unfold ground makeRoom
  cases path.parent? with
  | none => exact .refl fs
  | some dir => exact fs.grows_createDirectories dir

theorem writeTable_eq (fs : FileSystem) (path : Path) (t : Table) : writeTable fs path t =
    match (makeRoom fs path).1 with
    | .error e => (.error (.writeFailed path e.message), ground fs path)
    | .ok () =>
      match (ground fs path).writeText (stagingPath path) t.print with
      | .error e => (.error (.writeFailed path e.message), ground fs path)
      | .ok fs =>
        match fs.rename (stagingPath path) path with
        | .error e => (.error (.writeFailed path e.message), fs)
        | .ok fs => (.ok (), fs) := by
  unfold writeTable ground makeRoom
  -- What the operations do plays no part here.
  generalize FileSystem.writeText = write, FileSystem.rename = rename
  cases path.parent? with
  | none => rfl
  | some dir => rfl

/-- The file system once a table was written to the staging file. -/
def staged (fs : FileSystem) (path : Path) (seat : Location) (t : Table) : FileSystem :=
  (ground fs path).put seat (.file (Bytes.ofText t.print))

/-- How writing a table can end. -/
inductive Written (fs : FileSystem) (path : Path) (t : Table) :
    Except StoreError Unit × FileSystem → Prop where
  /-- There is no directory, or no place for a file in it. -/
  | noRoom (e : StoreError) : Written fs path t (.error e, ground fs path)
  | notRenamed (e : StoreError) {seat : Location} {reason : IoError}
      (hseat : (ground fs path).seat? (stagingPath path) = some seat)
      (hrename : (staged fs path seat t).rename (stagingPath path) path = .error reason) :
      Written fs path t (.error e, staged fs path seat t)
  | renamed {seat : Location} {fs' : FileSystem}
      (hseat : (ground fs path).seat? (stagingPath path) = some seat)
      (hrename : (staged fs path seat t).rename (stagingPath path) path = .ok fs') :
      Written fs path t (.ok (), fs')

/-- **How writing a table ends.** -/
theorem written_writeTable (fs : FileSystem) (path : Path) (t : Table) :
    Written fs path t (writeTable fs path t) := by
  rw [writeTable_eq]
  cases (makeRoom fs path).1 with
  | error e => exact .noRoom _
  | ok =>
      simp only
      cases hwrite : (ground fs path).writeText (stagingPath path) t.print with
      | error e => exact .noRoom _
      | ok written =>
          obtain ⟨seat, hseat, rfl⟩ := FileSystem.write_eq_ok.1 hwrite
          simp only
          cases hrename : ((ground fs path).put seat (.file (Bytes.ofText t.print))).rename
              (stagingPath path) path with
          | error e => exact .notRenamed _ hseat hrename
          | ok fs' => exact .renamed hseat hrename

/-! ## What is left if a table is not written -/

/-- What an attempt to write a table keeps if it fails. -/
structure Kept (fs : FileSystem) (path : Path) (fs' : FileSystem) : Prop where
  /-- The file of the table reads as before. -/
  table : ∀ content, fs.read path = .ok content → fs'.read path = .ok content
  /-- So does every other one that is not the staging file. -/
  other : ∀ q content, (ground fs path).seat? q ≠ (ground fs path).seat? (stagingPath path) →
    fs.read q = .ok content → fs'.read q = .ok content
  /-- Away from the staging file only directories were made. -/
  look : ∀ loc, (ground fs path).seat? (stagingPath path) ≠ some loc →
    fs'.look loc = fs.look loc ∨ fs.look loc = none ∧ fs'.look loc = some .directory

theorem Kept.of_grows (h : fs.Grows fs') (path : Path) : Kept fs path fs' where
  table _ := h.stays.read_eq_ok
  other _ _ _ := h.stays.read_eq_ok
  look loc _ := h.look loc

/-- A table that was staged but could not be renamed has no file yet: the staging file has a seat,
and between two seats the renaming would not fail. -/
theorem seat?_of_rename_staged {seat : Location} {reason : IoError}
    (hseat : (ground fs path).seat? (stagingPath path) = some seat)
    (hrename : (staged fs path seat t).rename (stagingPath path) path = .error reason) :
    (staged fs path seat t).seat? path = none := by
  have hput := FileSystem.look_put_seat hseat (.file (Bytes.ofText t.print))
  have hsteers := (FileSystem.steers_put_seat hseat (Bytes.ofText t.print)).1
  have hstaging := hsteers.seat?_eq_some hseat (.inr ⟨_, hput⟩)
  cases hpath : (staged fs path seat t).seat? path with
  | none => rfl
  | some loc =>
      obtain ⟨fs', hok⟩ := FileSystem.exists_rename hstaging hput hpath
      cases hrename.symm.trans hok

/-- **A table that is not written leaves all files as they are**, the staging file apart. -/
theorem kept_writeTable (h : writeTable fs path t = (.error e, fs')) : Kept fs path fs' := by
  have hgrows := grows_ground fs path
  have hwritten := written_writeTable fs path t
  rw [h] at hwritten
  cases hwritten with
  | noRoom => exact .of_grows hgrows path
  | @notRenamed _ seat reason hseat hrename =>
      refine ⟨fun content hread => ?_, fun q content hq hread => ?_, fun loc hloc => ?_⟩
      · -- A file that can be read has a seat, and keeps it when the staging file is written.
        obtain ⟨loc, hloc, -⟩ := FileSystem.read_eq_ok.1 (hgrows.stays.read_eq_ok hread)
        cases (seat?_of_rename_staged hseat hrename).symm.trans (FileSystem.seat?_put hseat hloc _)
      · exact FileSystem.read_put_of_ne hseat (hgrows.stays.read_eq_ok hread) (hseat ▸ hq) _
      · have hne : loc ≠ seat := by
          rintro rfl
          exact hloc hseat
        rw [staged, FileSystem.look_put_of_ne hne]
        exact hgrows.look loc

/-- **A row that is not persisted leaves all files as they are**, the staging file apart. -/
theorem Store.kept_persist {s : Store} {uuid : String} (h : s.persist fs uuid = (.error e, fs')) :
    ∃ path, s.path = some path ∧ Kept fs path fs' := by
  cases hpath : s.path with
  | none => cases (persist_of_path_eq_none hpath fs uuid).symm.trans h
  | some path =>
      cases hrow : s.table.row? uuid with
      | none => cases (persist_of_row?_eq_none hrow fs).symm.trans h
      | some r =>
          refine ⟨path, rfl, ?_⟩
          rw [persist_eq hpath hrow] at h
          cases hread : readTable fs path with
          | error e' =>
              rw [hread] at h
              cases h
              exact .of_grows (.refl fs) path
          | ok t =>
              rw [hread] at h
              exact kept_writeTable h

end ConnectionSecurity.Waiver
