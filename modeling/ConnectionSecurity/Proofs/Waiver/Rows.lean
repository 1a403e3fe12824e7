import ConnectionSecurity.Proofs.Waiver.Document
import ConnectionSecurity.Proofs.Waiver.Persist

/-!
# The rows of the file after a table was written

If writing a table succeeds, its rows are read back (`readTable_writeTable`), provided that the
renaming did what it is for (`Replaces`); it does if no link is in the way (`replaces_of_seat?`).

If it fails, the rows of the file are those that were there before (`readTable_of_not_written`). One
trap is left: the directory of the file is made before anything is written, and stays. A path that
led nowhere because this directory was missing, and goes up again behind it, may lead to a file from
then on.

At the root of a file system without links none of this is in the way: a table can be written, and
what else is there stays (`Bare`).
-/

namespace ConnectionSecurity.Waiver

variable {fs fs' : FileSystem} {path : Path} {t old : Table} {e : StoreError}

/-- The rows of a file stand in ascending order. -/
theorem ascending_readTable (h : readTable fs path = .ok t) : t.Ascending := by
  rcases readTable_eq_ok.1 h with ⟨-, rfl⟩ | ⟨text, -, hparse⟩
  · exact Table.ascending_empty
  · exact Table.ascending_parse? hparse

/-- Making the directory of a file that is there changes nothing about it. -/
theorem readTable_ground (h : fs.pathExists path = true) :
    readTable (ground fs path) path = readTable fs path := by
  unfold FileSystem.pathExists at h
  cases hnode : fs.nodeAt path with
  | error e =>
      rw [hnode] at h
      cases h
  | ok node =>
      have hground := (grows_ground fs path).stays.nodeAt_eq_ok hnode
      have hsame : (ground fs path).nodeAt path = fs.nodeAt path := hground.trans hnode.symm
      have hexists : (ground fs path).pathExists path = fs.pathExists path := by
        rw [FileSystem.pathExists, hsame, FileSystem.pathExists]
      have htext : (ground fs path).readText path = fs.readText path := by
        rw [FileSystem.readText, FileSystem.read, hsame, FileSystem.readText, FileSystem.read]
      rw [readTable, readTable, hexists, htext]

/-! ## Written tables -/

/-- Renaming the staging file does what it is for: what was read from the staging file is read from
the file of the table. A staging file that is a link to the table would not do, since it would take
the place of what it leads to. -/
def Replaces (fs : FileSystem) (path : Path) : Prop :=
  ∀ text written renamed, (ground fs path).writeText (stagingPath path) text = .ok written →
    written.rename (stagingPath path) path = .ok renamed →
    renamed.read path = written.read (stagingPath path)

/-- **The rows that were written are read back.** -/
theorem readTable_writeTable (h : writeTable fs path t = (.ok (), fs'))
    (hreplaces : Replaces fs path) (ht : t.Ascending) : readTable fs' path = .ok t := by
  have hwritten := written_writeTable fs path t
  rw [h] at hwritten
  cases hwritten with
  | @renamed seat _ hseat hrename =>
      have hwrite : (ground fs path).writeText (stagingPath path) t.print =
          .ok (staged fs path seat t) := FileSystem.write_eq_ok.2 ⟨seat, hseat, rfl⟩
      have hread : fs'.read path = .ok (Bytes.ofText t.print) :=
        (hreplaces _ _ _ hwrite hrename).trans (FileSystem.read_put_seat hseat hseat)
      have htext : fs'.readText path = .ok t.print :=
        FileSystem.readText_eq_ok.2 ⟨_, hread, Bytes.text?_ofText _⟩
      rw [readTable_of_readText htext, Table.parse?_print ht]

/-- Renaming does what it is for if neither file is a link, and the one that is written can be. -/
theorem replaces_of_seat? {loc : Location} (hpath : (ground fs path).seat? path = some loc)
    (hname : (ground fs path).locate .stay path = (ground fs path).locate .follow path)
    (hstaging : (ground fs path).locate .stay (stagingPath path) =
      (ground fs path).locate .follow (stagingPath path)) : Replaces fs path := by
  intro text written renamed hwrite hrename
  obtain ⟨seat, hseat, rfl⟩ := FileSystem.write_eq_ok.1 hwrite
  have hread := FileSystem.read_rename (FileSystem.seat?_put hseat hseat _)
    (FileSystem.look_put_seat hseat _) (FileSystem.seat?_put hseat hpath _)
    (FileSystem.locate_stay_put hseat hseat hstaging _)
    (FileSystem.locate_stay_put hseat hpath hname _) hrename
  exact hread.trans (FileSystem.read_put_seat hseat hseat).symm

/-- Writing succeeds if there is a directory and both files can be written. -/
theorem exists_writeTable {seat loc : Location} (hroom : (makeRoom fs path).1 = .ok ())
    (hstaging : (ground fs path).seat? (stagingPath path) = some seat)
    (hpath : (ground fs path).seat? path = some loc) (t : Table) :
    ∃ fs', writeTable fs path t = (.ok (), fs') := by
  have hwrite : (ground fs path).writeText (stagingPath path) t.print =
      .ok (staged fs path seat t) := FileSystem.write_eq_ok.2 ⟨seat, hstaging, rfl⟩
  obtain ⟨fs', hrename⟩ := FileSystem.exists_rename (FileSystem.seat?_put hstaging hstaging _)
    (FileSystem.look_put_seat hstaging (.file (Bytes.ofText t.print)))
    (FileSystem.seat?_put hstaging hpath _)
  have hrenamed : (staged fs path seat t).rename (stagingPath path) path = .ok fs' := hrename
  refine ⟨fs', ?_⟩
  rw [writeTable_eq, hroom]
  simp only [hwrite, hrenamed]

/-! ## Tables that were not written -/

/-- **A table that is not written leaves the rows of the file as they are**, if making its directory
did. -/
theorem readTable_of_not_written (h : writeTable fs path t = (.error e, fs'))
    (hground : readTable (ground fs path) path = .ok old) : readTable fs' path = .ok old := by
  have hwritten := written_writeTable fs path t
  rw [h] at hwritten
  cases hwritten with
  | noRoom => exact hground
  | @notRenamed _ seat reason hseat hrename =>
      have hnone := seat?_of_rename_staged hseat hrename
      rcases readTable_eq_ok.1 hground with ⟨hmissing, rfl⟩ | ⟨text, htext, -⟩
      · exact readTable_of_not_pathExists (FileSystem.pathExists_put hseat hnone hmissing)
      · -- A file that was there would have been renamed to.
        obtain ⟨content, hcontent, -⟩ := FileSystem.readText_eq_ok.1 htext
        obtain ⟨loc, hloc, -⟩ := FileSystem.read_eq_ok.1 hcontent
        cases hnone.symm.trans (FileSystem.seat?_put hseat hloc _)

/-! ## Rows that are persisted -/

namespace Store

variable {s : Store} {uuid : String} {r : Row}

/-- **A row that is persisted joins the rows of the file.** -/
theorem readTable_persist (hpath : s.path = some path) (hrow : s.table.row? uuid = some r)
    (h : s.persist fs uuid = (.ok (), fs')) (hreplaces : Replaces fs path) :
    ∃ t, readTable fs path = .ok t ∧ readTable fs' path = .ok (t.put uuid r) := by
  rw [persist_eq hpath hrow] at h
  cases hread : readTable fs path with
  | error e =>
      rw [hread] at h
      cases h
  | ok t =>
      rw [hread] at h
      exact ⟨t, rfl, readTable_writeTable h hreplaces ((ascending_readTable hread).put uuid r)⟩

/-- The row that was persisted is the one that is persisted. -/
theorem persisted?_of_persist (hrow : s.table.row? uuid = some r)
    (h : s.persist fs uuid = (.ok (), fs'))
    (hreplaces : ∀ path, s.path = some path → Replaces fs path) :
    s.persisted? fs' uuid = some r := by
  unfold persisted?
  cases hpath : s.path with
  | none => simp [Table.row, hrow]
  | some path =>
      obtain ⟨t, -, hread⟩ := readTable_persist hpath hrow h (hreplaces path hpath)
      simp [hread, Except.toOption]

/-- **A row that is not persisted leaves the rows of the file as they are**, if making its directory
did. -/
theorem readTable_of_not_persisted (hpath : s.path = some path)
    (h : s.persist fs uuid = (.error e, fs'))
    (hground : readTable (ground fs path) path = readTable fs path) :
    readTable fs' path = readTable fs path := by
  cases hrow : s.table.row? uuid with
  | none => cases (persist_of_row?_eq_none hrow fs).symm.trans h
  | some r =>
      rw [persist_eq hpath hrow] at h
      cases hread : readTable fs path with
      | error e' =>
          rw [hread] at h
          cases h
          exact hread
      | ok t =>
          rw [hread] at h hground
          exact readTable_of_not_written h hground

end Store

/-! ## A table at the root -/

open FileSystem

theorem isName_t : IsName "t" := ⟨by decide, by decide, by decide⟩

theorem isName_staging : IsName "t.toml.tmp" := ⟨by decide, by decide, by decide⟩

/-- Without links, and with no directory in the way of the file and of the one it is staged in. -/
structure Bare (fs : FileSystem) : Prop where
  no_link : ∀ x target, fs.look x ≠ some (.link target)
  table : fs.look ["t"] = none ∨ ∃ content, fs.look ["t"] = some (.file content)
  staging : fs.look ["t.toml.tmp"] = none ∨ ∃ content, fs.look ["t.toml.tmp"] = some (.file content)

theorem bare_blank : Bare (.blank []) where
  no_link := (linkless_blank []).look_ne
  table := .inl rfl
  staging := .inl rfl

namespace Bare

theorem seat?_table (hfs : Bare fs) : fs.seat? "/t" = some ["t"] := by
  have hpath : "/t" = "/" ++ "t" := by decide
  rw [hpath]
  exact seat?_root isName_t (by decide) (by decide) hfs.table

theorem seat?_staging (hfs : Bare fs) :
    fs.seat? (stagingPath "/t") = some ["t.toml.tmp"] := by
  have hpath : stagingPath "/t" = "/" ++ "t.toml.tmp" := by decide
  rw [hpath]
  exact seat?_root isName_staging (by decide) (by decide) hfs.staging

theorem replaces (hfs : Bare fs) : Replaces fs "/t" :=
  replaces_of_seat? hfs.seat?_table (locate_stay_of_no_link hfs.no_link hfs.seat?_table)
    (locate_stay_of_no_link hfs.no_link hfs.seat?_staging)

/-- What writing a table leaves: the file, and no staging file. -/
theorem writeTable_eq (hfs : Bare fs) (t : Table) : writeTable fs "/t" t =
    (.ok (), ((fs.put ["t.toml.tmp"] (.file (Bytes.ofText t.print))).drop ["t.toml.tmp"]).put ["t"]
      (.file (Bytes.ofText t.print))) := by
  obtain ⟨fs', hwrite⟩ := exists_writeTable rfl hfs.seat?_staging hfs.seat?_table t
  have hwritten := written_writeTable fs "/t" t
  rw [hwrite] at hwritten ⊢
  cases hwritten with
  | @renamed seat _ hseat hrename =>
      obtain rfl : seat = ["t.toml.tmp"] :=
        Option.some.inj (hseat.symm.trans hfs.seat?_staging)
      have htable := locate_stay_of_no_link hfs.no_link hfs.seat?_table
      have hstaging := locate_stay_of_no_link hfs.no_link hfs.seat?_staging
      have hmoved : (staged fs "/t" ["t.toml.tmp"] t).rename (stagingPath "/t") "/t" =
          .ok (((staged fs "/t" ["t.toml.tmp"] t).drop ["t.toml.tmp"]).put ["t"]
            (.file (Bytes.ofText t.print))) :=
        rename_seats (seat?_put hseat hseat _) (look_put_seat hseat _)
          (seat?_put hseat hfs.seat?_table _) (locate_stay_put hseat hseat hstaging _)
          (locate_stay_put hseat hfs.seat?_table htable _)
      rw [Except.ok.inj (hrename.symm.trans hmoved)]
      rfl

/-- Away from the two files everything is as before. -/
theorem look_writeTable (hfs : Bare fs) (t : Table) {x : Location} (htable : x ≠ ["t"])
    (hstaging : x ≠ ["t.toml.tmp"]) : (writeTable fs "/t" t).2.look x = fs.look x := by
  rw [hfs.writeTable_eq, look_put_of_ne htable, look_drop_of_ne hstaging, look_put_of_ne hstaging]

/-- A table can be written, and then another one. -/
theorem writeTable (hfs : Bare fs) (t : Table) :
    ∃ fs', Waiver.writeTable fs "/t" t = (.ok (), fs') ∧ Bare fs' := by
  refine ⟨_, hfs.writeTable_eq t, ?_, .inr ⟨_, rfl⟩, .inl rfl⟩
  intro x target hlook
  by_cases hx : x = ["t"]
  · subst hx
    cases hlook
  by_cases hx' : x = ["t.toml.tmp"]
  · subst hx'
    cases hlook
  · have hsame := hfs.look_writeTable t hx hx'
    rw [hfs.writeTable_eq] at hsame
    exact hfs.no_link x target (hsame.symm.trans hlook)

/-- A table that is new takes nothing away. -/
theorem stays_writeTable (hfs : Bare fs) (htable : fs.look ["t"] = none)
    (hstaging : fs.look ["t.toml.tmp"] = none) (t : Table) :
    fs.Stays (Waiver.writeTable fs "/t" t).2 where
  workingDirectory := by
    rw [hfs.writeTable_eq]
    rfl
  look x node hx := by
    rw [hfs.look_writeTable, hx]
    · rintro rfl
      cases htable.symm.trans hx
    · rintro rfl
      cases hstaging.symm.trans hx

end Bare

end ConnectionSecurity.Waiver
