import ConnectionSecurity.Credential.Check
import ConnectionSecurity.Proofs.FileSystem.Growth

/-!
# Files that pass, and pass again

A check of a chosen file finds an absolute path. When canonical paths are settled, that path leads
to the same file, so the check passes again on the path that it found (`checkFile_path`). `Keeps`
says that a change to the file system leaves every file alone that passes; one that leaves everything
in its place does (`Keeps.of_stays`).
-/

namespace ConnectionSecurity

namespace Credential

variable {fs fs' : FileSystem} {path : Option Path} {q : Path} {purpose : Purpose}
  {password : Option Secret.Control} {file : Accepted}

/-- Every file that passes a check passes it with the same findings after a change. -/
def Keeps (fs fs' : FileSystem) : Prop :=
  ∀ q purpose file, checkFile fs q purpose = .ok file → checkFile fs' q purpose = .ok file

theorem Keeps.refl (fs : FileSystem) : Keeps fs fs := fun _ _ _ h => h

/-! ## The choice -/

@[simp] theorem chosen?_none : chosen? none = none := rfl

@[simp] theorem chosen?_some_eq_some {p : Path} : chosen? (some p) = some q ↔ p = q ∧ q ≠ "" := by
  unfold chosen?
  rw [Option.filter_eq_some_iff]
  constructor
  · rintro ⟨h, hne⟩
    obtain rfl := Option.some.inj h
    exact ⟨rfl, by simpa using hne⟩
  · rintro ⟨rfl, hne⟩
    exact ⟨rfl, by simpa using hne⟩

theorem chosen?_eq_none : chosen? path = none ↔ path = none ∨ path = some "" := by
  cases path with
  | none => simp
  | some p => by_cases hp : p = "" <;> simp [chosen?, Option.filter, hp]

/-! ## What passes -/

/-- What it takes for a file to pass. -/
theorem checkFile_eq_ok : checkFile fs q purpose = .ok file ↔
    ∃ data contents, open? fs q = .ok (file.path, data) ∧ judge purpose data = .ok contents ∧
      file.format = contents.format ∧ file.encrypted = contents.encrypted := by
  simp only [checkFile, Except.bind_eq_ok, Except.mapError_eq_ok, Except.pure_eq_ok]
  constructor
  · rintro ⟨⟨absolute, data⟩, ho, contents, hj, rfl⟩
    exact ⟨data, contents, ho, hj, rfl, rfl⟩
  · rintro ⟨data, contents, ho, hj, hformat, hencrypted⟩
    exact ⟨_, ho, contents, hj, by rw [← hformat, ← hencrypted]⟩

/-- What it takes for the first bytes of a file to be judged fit. -/
theorem judge_eq_ok {data : Bytes} {contents : Contents} : judge purpose data = .ok contents ↔
    Contents.recognise? data = some contents ∧ mismatch? purpose contents = none ∧
      ∃ decoded, decode data contents = .ok decoded ∧ shortfall? purpose decoded = none := by
  unfold judge
  constructor
  · intro h
    split at h
    · cases h
    next seen hseen =>
      split at h
      · cases h
      next hsuits =>
        split at h
        · cases h
        next decoded hdecoded =>
          split at h
          · cases h
          next hfull =>
            cases h
            exact ⟨hseen, hsuits, decoded, hdecoded, hfull⟩
  · rintro ⟨hseen, hsuits, decoded, hdecoded, hfull⟩
    simp only [hseen, hsuits, hdecoded, hfull]

theorem check_eq_ok {found : Option Accepted} : check fs path purpose password = .ok found ↔
    (chosen? path = none ∧ purpose = .ca ∧ found = none) ∨
    ∃ q file, chosen? path = some q ∧ checkFile fs q purpose = .ok file ∧ found = some file ∧
      ∀ control, password = some control → control.isSatisfied = true := by
  unfold check
  cases hc : chosen? path with
  | none => by_cases hp : purpose = .ca <;> simp [hp, @eq_comm _ found]
  | some q =>
      cases password with
      | none => simp [@eq_comm _ found]
      | some control => cases hs : control.isSatisfied <;> simp [hs, @eq_comm _ found]

theorem check_eq_ok_none :
    check fs path purpose password = .ok none ↔ chosen? path = none ∧ purpose = .ca := by
  simp [check_eq_ok]

theorem check_eq_ok_some : check fs path purpose password = .ok (some file) ↔
    ∃ q, chosen? path = some q ∧ checkFile fs q purpose = .ok file ∧
      ∀ control, password = some control → control.isSatisfied = true := by
  rw [check_eq_ok]
  constructor
  · rintro (⟨-, -, hn⟩ | ⟨q, _, hq, hf, hfound, hpassword⟩)
    · cases hn
    · cases hfound
      exact ⟨q, hq, hf, hpassword⟩
  · rintro ⟨q, hq, hf, hpassword⟩
    exact .inr ⟨q, file, hq, hf, rfl, hpassword⟩

/-- A fit choice stays fit without the password that was asked for. -/
theorem check_without_password (h : check fs path purpose password = .ok (some file)) :
    check fs path purpose none = .ok (some file) := by
  obtain ⟨q, hq, hf, -⟩ := check_eq_ok_some.1 h
  exact check_eq_ok_some.2 ⟨q, hq, hf, fun _ hc => by cases hc⟩

/-! ## Passing again -/

/-- A regular file can be opened; what is found is its canonical path and the start of it. -/
theorem open?_eq_ok {absolute : Path} {data : Bytes} : open? fs q = .ok (absolute, data) ↔
    fs.canonicalPath q = .ok absolute ∧
      ∃ content, fs.nodeAt absolute = .ok (.file content) ∧ data = content.take readLimit := by
  have hstart {content : Bytes} (hnode : fs.nodeAt absolute = .ok (.file content)) :
      readStart fs absolute = .ok (content.take readLimit) := by
    rw [readStart, FileSystem.read, hnode]
    rfl
  simp only [open?, Except.bind_eq_ok, Except.mapError_eq_ok]
  constructor
  · rintro ⟨c, hc, node, hnode, h⟩
    cases node with
    | directory => simp at h
    | link target => simp at h
    | file content =>
        simp only [Except.bind_eq_ok, Except.mapError_eq_ok, Except.pure_eq_ok, Prod.mk.injEq] at h
        obtain ⟨start, hread, rfl, rfl⟩ := h
        exact ⟨hc, content, hnode, Except.ok.inj (hread.symm.trans (hstart hnode))⟩
  · rintro ⟨hc, content, hnode, rfl⟩
    exact ⟨absolute, hc, .file content, hnode, by simp [hstart hnode]⟩

/-- What was opened is the start of the file at the path that was found. -/
theorem read_of_open? {absolute : Path} {data : Bytes} (h : open? fs q = .ok (absolute, data)) :
    ∃ content, fs.read absolute = .ok content ∧ data = content.take readLimit := by
  obtain ⟨-, content, hnode, rfl⟩ := open?_eq_ok.1 h
  refine ⟨content, ?_, rfl⟩
  rw [FileSystem.read, hnode]
  rfl

theorem canonicalPath_of_checkFile (h : checkFile fs q purpose = .ok file) :
    fs.canonicalPath q = .ok file.path := by
  obtain ⟨data, contents, ho, -⟩ := checkFile_eq_ok.1 h
  exact (open?_eq_ok.1 ho).1

/-- Opening depends on a path only through its canonical path. -/
theorem open?_congr {p : Path} {c : Path} (hp : fs.canonicalPath p = .ok c)
    (hq : fs.canonicalPath q = .ok c) : open? fs p = open? fs q := by
  simp only [open?, hp, hq]

/-- The path that a check found passes the check in its turn. -/
theorem checkFile_path (hfs : fs.SettlesPaths) (h : checkFile fs q purpose = .ok file) :
    checkFile fs file.path purpose = .ok file := by
  have hc := canonicalPath_of_checkFile h
  obtain ⟨data, contents, ho, hrest⟩ := checkFile_eq_ok.1 h
  exact checkFile_eq_ok.2 ⟨data, contents, (open?_congr (hfs _ _ hc) hc).trans ho, hrest⟩

/-- A choice that passed passes again by the path that was found, also after a change that keeps
the files that pass. -/
theorem check_path {password' : Option Secret.Control} (hfs : fs.SettlesPaths)
    (hkeep : Keeps fs fs') (h : check fs path purpose password = .ok (some file))
    (hpassword : ∀ control, password' = some control → control.isSatisfied = true) :
    check fs' (some file.path) purpose password' = .ok (some file) := by
  obtain ⟨q, -, hf, -⟩ := check_eq_ok_some.1 h
  have hne := FileSystem.canonicalPath_ne_empty (canonicalPath_of_checkFile hf)
  exact check_eq_ok_some.2 ⟨file.path, chosen?_some_eq_some.2 ⟨rfl, hne⟩,
    hkeep _ _ _ (checkFile_path hfs hf), hpassword⟩

/-- A choice that passed passes again as it is after a change that keeps the files that pass. -/
theorem check_keeps {found : Option Accepted} (hkeep : Keeps fs fs')
    (h : check fs path purpose password = .ok found) :
    check fs' path purpose password = .ok found := by
  rcases check_eq_ok.1 h with hnone | ⟨q, file, hq, hf, hrest⟩
  · exact check_eq_ok.2 (.inl hnone)
  · exact check_eq_ok.2 (.inr ⟨q, file, hq, hkeep _ _ _ hf, hrest⟩)

/-- Files that pass are kept where everything stays that is there. -/
theorem Keeps.of_stays (h : fs.Stays fs') : Keeps fs fs' := by
  intro q purpose file hf
  obtain ⟨data, contents, hopen, hrest⟩ := checkFile_eq_ok.1 hf
  obtain ⟨hcanonical, content, hnode, hdata⟩ := open?_eq_ok.1 hopen
  have hopen' : open? fs' q = .ok (file.path, data) :=
    open?_eq_ok.2 ⟨h.canonicalPath_eq_ok hcanonical, content, h.nodeAt_eq_ok hnode, hdata⟩
  exact checkFile_eq_ok.2 ⟨data, contents, hopen', hrest⟩

/-! ## A single file -/

/-- A root directory with one file in it. -/
def withFile (data : Bytes) : FileSystem := (FileSystem.blank []).put ["k"] (.file data)

theorem tidy_withFile (data : Bytes) : (withFile data).Tidy :=
  ((FileSystem.linkless_blank []).put ["k"] data).tidy trivial

theorem walkFrom_withFile (data : Bytes) :
    (withFile data).walkFrom .follow "/k" = .ok (.node ["k"] (.file data)) := by
  have hpieces : Path.pieces "/k" = ["", "k"] := by decide
  have hshort : ¬FileSystem.nameLimit < Bytes.sizeOfText "k" := by decide
  unfold FileSystem.walkFrom
  rw [if_neg (by decide), if_neg (by decide), if_pos (by decide), hpieces]
  simp [FileSystem.walk, hshort, withFile, Path.isIdle]

theorem nodeAt_withFile (data : Bytes) : (withFile data).nodeAt "/k" = .ok (.file data) := by
  unfold FileSystem.nodeAt FileSystem.locate
  rw [if_neg (by decide), walkFrom_withFile]
  rfl

theorem read_withFile (data : Bytes) : (withFile data).read "/k" = .ok data := by
  unfold FileSystem.read
  rw [nodeAt_withFile]
  rfl

theorem readStart_withFile (data : Bytes) :
    readStart (withFile data) "/k" = .ok (data.take readLimit) := by
  rw [readStart, read_withFile]
  rfl

theorem open?_withFile (data : Bytes) :
    open? (withFile data) "/k" = .ok ("/k", data.take readLimit) := by
  have hcanonical : (withFile data).canonicalPath "/k" = .ok "/k" := by
    unfold FileSystem.canonicalPath
    rw [walkFrom_withFile]
    rfl
  exact open?_eq_ok.2 ⟨hcanonical, data, nodeAt_withFile data, rfl⟩

/-- The file passes if its first bytes are judged fit. -/
theorem check_withFile {data : Bytes} {contents : Contents}
    (h : judge purpose (data.take readLimit) = .ok contents) :
    check (withFile data) (some "/k") purpose none =
      .ok (some ⟨"/k", contents.format, contents.encrypted⟩) := by
  have hchosen : chosen? (some "/k") = some "/k" := by decide
  exact check_eq_ok_some.2
    ⟨_, hchosen, checkFile_eq_ok.2 ⟨_, contents, open?_withFile data, h, rfl, rfl⟩, by simp⟩

/-- Otherwise it is refused for the reason that its first bytes are. -/
theorem check_withFile_error {data : Bytes} {reason : String}
    (h : judge purpose (data.take readLimit) = .error reason) :
    check (withFile data) (some "/k") purpose none =
      .error (.invalidFormat purpose "/k" reason) := by
  have hfile : checkFile (withFile data) "/k" purpose =
      .error (.invalidFormat purpose "/k" reason) := by
    unfold checkFile
    rw [open?_withFile]
    show (judge purpose (data.take readLimit)).mapError (Fault.invalidFormat purpose "/k") >>= _ = _
    rw [h]
    rfl
  have hchosen : chosen? (some "/k") = some "/k" := by decide
  simp only [check, hchosen, hfile]
  rfl

end Credential

end ConnectionSecurity
