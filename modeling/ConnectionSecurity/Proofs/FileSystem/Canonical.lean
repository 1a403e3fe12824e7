import ConnectionSecurity.FileSystem.Operations
import ConnectionSecurity.Proofs.Except
import ConnectionSecurity.Proofs.Text.Pieces

/-!
# Canonical paths

The canonical path of a canonical path is the path itself (`Tidy.settlesPaths`), in every file
system that is `Tidy`: its working directory exists and no link holds a NUL character. A walk
stands in a directory all the time whose names are proper and all of whose parents are directories
(`Stands`), and it ends at a name in such a directory, so the path of the place it ends at leads
there without a link on the way.
-/

namespace ConnectionSecurity

/-! ## Splitting at slashes -/

/-- Parts without separators are split as they were put together. -/
theorem Path.pieces_intercalate {names : List String} (h : ∀ n ∈ names, '/' ∉ n.toList)
    (hne : names ≠ []) : Path.pieces ("/".intercalate names) = names := by
  have hparts : (['/'].intercalate (names.map String.toList)).splitOn '/' =
      names.map String.toList := by
    refine List.splitOn_intercalate '/' ?_ (by simpa using hne)
    simpa using h
  have hsplit : Text.splitOnP (· == '/') ("/".intercalate names).toList =
      names.map String.toList := by
    rw [String.toList_intercalate, Text.splitOnP_eq]
    exact hparts
  rw [Path.pieces, hsplit, List.map_map]
  simp

/-- A piece of a path has no slash, and no character that the path has not. -/
theorem Path.of_mem_pieces {p piece : String} (h : piece ∈ Path.pieces p) :
    '/' ∉ piece.toList ∧ ∀ c ∈ piece.toList, c ∈ p.toList := by
  obtain ⟨part, hpart, rfl⟩ := List.mem_map.1 h
  rw [String.toList_ofList]
  have hmem := Text.of_mem_splitOnP hpart
  exact ⟨fun hslash => by simpa using (hmem _ hslash).1, fun c hc => (hmem c hc).2⟩

namespace FileSystem

variable {fs : FileSystem} {links : Nat} {loc : Location} {node : Node} {pieces : List String}

/-! ## Places -/

/-- A name that stands for itself in a path. -/
structure Proper (name : String) : Prop where
  not_idle : Path.isIdle name = false
  not_up : (name == "..") = false
  short : Bytes.sizeOfText name ≤ nameLimit
  no_slash : '/' ∉ name.toList
  no_nul : '\x00' ∉ name.toList

/-- A directory with a proper name, all of whose parents are directories too. -/
def Stands (fs : FileSystem) : Location → Prop
  | [] => True
  | name :: dir => Proper name ∧ fs.node? (name :: dir) = some .directory ∧ fs.Stands dir

/-- What stands at a place that a walk can end at. -/
def Reaches (fs : FileSystem) : Location → Node → Prop
  | [], node => node = .directory
  | name :: dir, node => Proper name ∧ fs.Stands dir ∧ fs.node? (name :: dir) = some node ∧
      ∀ target, node ≠ .link target

/-- The working directory exists, and no link holds a NUL character. -/
structure Tidy (fs : FileSystem) : Prop where
  stands : fs.Stands fs.workingDirectory
  links : ∀ loc target, fs.node? loc = some (.link target) → '\x00' ∉ target.toList

/-- Nothing is a link. -/
def Linkless (fs : FileSystem) : Prop := ∀ loc target, fs.node? loc ≠ some (.link target)

theorem linkless_blank (workingDirectory : Location) : (blank workingDirectory).Linkless := by
  intro loc target h
  simp only [blank] at h
  split at h
  · cases h
  · cases h

theorem Linkless.put (h : fs.Linkless) (place : Location) (content : Bytes) :
    (fs.put place (.file content)).Linkless := by
  intro loc target hloc
  rw [node?_put] at hloc
  split at hloc
  · cases hloc
  · exact h loc target hloc

theorem Linkless.look_ne (h : fs.Linkless) (loc : Location) (target : Path) :
    fs.look loc ≠ some (.link target) := by
  cases loc with
  | nil => nofun
  | cons name dir => exact h (name :: dir) target

/-- A file system without links is tidy if its working directory exists. -/
theorem Linkless.tidy (h : fs.Linkless) (hstands : fs.Stands fs.workingDirectory) : fs.Tidy where
  stands := hstands
  links loc target hloc := absurd hloc (h loc target)

theorem Stands.tail {here : Location} (h : fs.Stands here) : fs.Stands here.tail := by
  cases here with
  | nil => exact h
  | cons name dir => exact h.2.2

theorem Stands.reaches {here : Location} (h : fs.Stands here) : fs.Reaches here .directory := by
  cases here with
  | nil => rfl
  | cons name dir => exact ⟨h.1, h.2.2, h.2.1, nofun⟩

/-- Pieces without slashes and NUL characters. -/
def Plain (pieces : List String) : Prop :=
  ∀ piece ∈ pieces, '/' ∉ piece.toList ∧ '\x00' ∉ piece.toList

theorem plain_pieces {p : Path} (h : '\x00' ∉ p.toList) : Plain p.pieces := by
  intro piece hpiece
  obtain ⟨hslash, hmem⟩ := Path.of_mem_pieces hpiece
  exact ⟨hslash, fun hnul => h (hmem _ hnul)⟩

theorem Plain.tail {piece : String} {rest : List String} (h : Plain (piece :: rest)) :
    Plain rest := fun q hq => h q (List.mem_cons_of_mem piece hq)

/-- A plain piece that a walk looks for is a proper name. -/
theorem Plain.proper {piece : String} {rest : List String} (h : Plain (piece :: rest))
    (hidle : ¬Path.isIdle piece = true) (hup : ¬(piece == "..") = true)
    (hlong : ¬nameLimit < Bytes.sizeOfText piece) : Proper piece where
  not_idle := by simpa using hidle
  not_up := by simpa using hup
  short := Nat.le_of_not_lt hlong
  no_slash := (h piece List.mem_cons_self).1
  no_nul := (h piece List.mem_cons_self).2

/-- A walk that follows links ends at a place that is no link. -/
theorem reaches_of_walk (hfs : fs.Tidy) {here : Location} (hhere : fs.Stands here)
    (hpieces : Plain pieces) (h : fs.walk .follow links here pieces = .ok (.node loc node)) :
    fs.Reaches loc node := by
  -- On the recursion of the walk: behind a link the pieces grow, and only the budget shrinks.
  induction links, here, pieces using walk.induct fs .follow with
  | case1 links here =>
      rw [walk] at h
      cases h
      exact hhere.reaches
  | case2 links here piece rest hidle ih =>
      rw [walk, if_pos hidle] at h
      exact ih hhere hpieces.tail h
  | case3 links here piece rest hidle hup ih =>
      rw [walk, if_neg hidle, if_pos hup] at h
      exact ih hhere.tail hpieces.tail h
  | case4 links here piece rest hidle hup hlong =>
      rw [walk, if_neg hidle, if_neg hup, if_pos hlong] at h
      cases h
  | case5 links here piece rest hidle hup hlong hlook hlast =>
      rw [walk, if_neg hidle, if_neg hup, if_neg hlong, hlook] at h
      simp [hlast] at h
  | case6 links here piece rest hidle hup hlong hlook hlast =>
      rw [walk, if_neg hidle, if_neg hup, if_neg hlong, hlook] at h
      simp [hlast] at h
  | case7 links here piece rest hidle hup hlong node hlook hstay => cases hstay
  | case8 links here piece rest hidle hup hlong hstay hlook ih =>
      rw [walk, if_neg hidle, if_neg hup, if_neg hlong, hlook] at h
      exact ih ⟨hpieces.proper hidle hup hlong, hlook, hhere⟩ hpieces.tail h
  | case9 links here piece rest hidle hup hlong hstay content hend hlook =>
      rw [walk, if_neg hidle, if_neg hup, if_neg hlong, hlook] at h
      simp only [hstay, hend] at h
      cases h
      exact ⟨hpieces.proper hidle hup hlong, hhere, hlook, nofun⟩
  | case10 links here piece rest hidle hup hlong hstay content hend hlook =>
      rw [walk, if_neg hidle, if_neg hup, if_neg hlong, hlook] at h
      simp [hend] at h
  | case11 here piece rest hidle hup hlong hstay target hlook =>
      rw [walk, if_neg hidle, if_neg hup, if_neg hlong, hlook] at h
      cases h
  | case12 here piece rest hidle hup hlong hstay target links hlook ih =>
      rw [walk, if_neg hidle, if_neg hup, if_neg hlong, hlook] at h
      refine ih ?_ ?_ h
      -- The target is read from the root or from the directory that holds the link.
      · split
        · trivial
        · exact hhere
      · intro q hq
        rcases List.mem_append.1 hq with hq | hq
        · exact plain_pieces (hfs.links _ _ hlook) q hq
        · exact hpieces.tail q hq

/-! ## The path of a place -/

/-- The names down to a directory lead there from the root. -/
theorem walk_down {dir : Location} (h : fs.Stands dir) (rest : List String) :
    fs.walk .follow links [] (dir.reverse ++ rest) = fs.walk .follow links dir rest := by
  induction dir generalizing rest with
  | nil => rfl
  | cons name dir ih =>
      obtain ⟨hproper, hlook, hdir⟩ := h
      have hlook : fs.look (name :: dir) = some .directory := hlook
      rw [List.reverse_cons, List.append_assoc, ih hdir]
      show fs.walk .follow links dir (name :: rest) = _
      rw [walk, if_neg (by simp [hproper.not_idle]), if_neg (by simp [hproper.not_up]),
        if_neg (Nat.not_lt.2 hproper.short), hlook]
      rfl

/-- The names down to a place lead there from the root. -/
theorem walk_reaches (h : fs.Reaches loc node) :
    fs.walk .follow links [] loc.reverse = .ok (.node loc node) := by
  cases loc with
  | nil =>
      obtain rfl : node = .directory := h
      rw [List.reverse_nil, walk]
  | cons name dir =>
      obtain ⟨hproper, hdir, hlook, hlink⟩ := h
      have hlook : fs.look (name :: dir) = some node := hlook
      rw [List.reverse_cons, walk_down hdir, walk, if_neg (by simp [hproper.not_idle]),
        if_neg (by simp [hproper.not_up]), if_neg (Nat.not_lt.2 hproper.short), hlook]
      cases node with
      | directory => rw [walk]; rfl
      | file content => rfl
      | link target => exact absurd rfl (hlink target)

theorem Stands.proper {dir : Location} (h : fs.Stands dir) : ∀ name ∈ dir, Proper name := by
  induction dir with
  | nil => exact nofun
  | cons name dir ih =>
      intro q hq
      rcases List.mem_cons.1 hq with rfl | hq
      · exact h.1
      · exact ih h.2.2 q hq

theorem Reaches.proper (h : fs.Reaches loc node) : ∀ name ∈ loc, Proper name := by
  cases loc with
  | nil => exact nofun
  | cons name dir =>
      intro q hq
      rcases List.mem_cons.1 hq with rfl | hq
      · exact h.1
      · exact h.2.1.proper q hq

theorem nul_not_mem_intercalate {names : List String} (h : ∀ n ∈ names, '\x00' ∉ n.toList) :
    '\x00' ∉ ("/".intercalate names).toList := by
  rw [String.toList_intercalate]
  induction names with
  | nil => simp
  | cons n names ih =>
      have hn := h n List.mem_cons_self
      have hrest := ih fun q hq => h q (List.mem_cons_of_mem n hq)
      cases names with
      | nil => simpa using hn
      | cons q names => simp_all

/-- The path of a place is a way down from the root to it, behind idle pieces. -/
theorem walk_pieces_pathOf (h : fs.Reaches loc node) :
    fs.walk .follow links [] (pathOf loc).pieces = .ok (.node loc node) := by
  have hidle : ∀ rest, fs.walk .follow links [] ("" :: rest) = fs.walk .follow links [] rest := by
    intro rest
    rw [walk, if_pos (by decide)]
  cases loc with
  | nil =>
      -- The path of the root is a slash, with an empty piece on either side.
      show fs.walk .follow links [] ["", ""] = _
      rw [hidle, hidle]
      exact walk_reaches h
  | cons name dir =>
      have hpath : pathOf (name :: dir) = "/".intercalate ("" :: (name :: dir).reverse) := by
        rw [String.intercalate_cons_of_ne_nil (by simp)]
        rfl
      have hslash : ∀ n ∈ "" :: (name :: dir).reverse, '/' ∉ n.toList := by
        intro n hn
        rcases List.mem_cons.1 hn with rfl | hn
        · simp
        · exact (h.proper n (List.mem_reverse.1 hn)).no_slash
      rw [hpath, Path.pieces_intercalate hslash (by simp), hidle]
      exact walk_reaches h

theorem pathOf_ne_empty (loc : Location) : pathOf loc ≠ "" := by
  intro he
  have hlength := congrArg String.length he
  simp [pathOf] at hlength

theorem isAbsolute_pathOf (loc : Location) : (pathOf loc).isAbsolute = true := by
  simp [Path.isAbsolute, pathOf]

/-- The path of a place leads to it. -/
theorem walkFrom_pathOf (h : fs.Reaches loc node) :
    fs.walkFrom .follow (pathOf loc) = .ok (.node loc node) := by
  have hempty : ¬(pathOf loc).isEmpty = true := fun he =>
    pathOf_ne_empty loc (String.isEmpty_iff.1 he)
  have hnul : '\x00' ∉ (pathOf loc).toList := by
    have hnames := nul_not_mem_intercalate fun n hn => (h.proper n (List.mem_reverse.1 hn)).no_nul
    simpa [pathOf] using hnames
  unfold walkFrom
  rw [if_neg (by simpa using hnul), if_neg hempty, if_pos (isAbsolute_pathOf loc)]
  exact walk_pieces_pathOf h

/-- The path of a place leads there without a link on the way. -/
theorem canonicalPath_pathOf (h : fs.Reaches loc node) :
    fs.canonicalPath (pathOf loc) = .ok (pathOf loc) := by
  rw [canonicalPath, walkFrom_pathOf h]
  rfl

/-- A canonical path is the path of a place. -/
theorem exists_pathOf {p c : Path} (h : fs.canonicalPath p = .ok c) : ∃ loc, c = pathOf loc := by
  simp only [canonicalPath, Except.bind_eq_ok] at h
  obtain ⟨found, -, h⟩ := h
  cases found with
  | vacant => cases h
  | node loc node => exact ⟨loc, (Except.pure_eq_ok.1 h).symm⟩

theorem canonicalPath_ne_empty {p c : Path} (h : fs.canonicalPath p = .ok c) : c ≠ "" := by
  obtain ⟨loc, rfl⟩ := exists_pathOf h
  exact pathOf_ne_empty loc

theorem isAbsolute_canonicalPath {p c : Path} (h : fs.canonicalPath p = .ok c) :
    c.isAbsolute = true := by
  obtain ⟨loc, rfl⟩ := exists_pathOf h
  exact isAbsolute_pathOf loc

/-- The canonical path of a canonical path is the path itself. -/
def SettlesPaths (fs : FileSystem) : Prop :=
  ∀ p c, fs.canonicalPath p = .ok c → fs.canonicalPath c = .ok c

/-- A path that has a canonical path leads to a place, and the canonical path is that of the place. -/
theorem Tidy.exists_place (hfs : fs.Tidy) {p c : Path} (h : fs.canonicalPath p = .ok c) :
    ∃ loc node, fs.walkFrom .follow p = .ok (.node loc node) ∧ fs.Reaches loc node ∧
      c = pathOf loc := by
  simp only [canonicalPath, Except.bind_eq_ok] at h
  obtain ⟨found, hwalk, h⟩ := h
  cases found with
  | vacant => cases h
  | node loc node =>
      obtain rfl := Except.pure_eq_ok.1 h
      refine ⟨loc, node, hwalk, ?_, rfl⟩
      unfold walkFrom at hwalk
      split at hwalk
      next => cases hwalk
      next hnul =>
        split at hwalk
        next => cases hwalk
        next =>
          have hplain := plain_pieces (by simpa using hnul)
          refine reaches_of_walk hfs ?_ hplain hwalk
          -- The walk starts at the root or at the working directory, and both stand.
          split
          · trivial
          · exact hfs.stands

/-- **Canonical paths are settled** in every tidy file system. -/
theorem Tidy.settlesPaths (hfs : fs.Tidy) : fs.SettlesPaths := by
  intro p c h
  obtain ⟨loc, node, -, hreaches, rfl⟩ := hfs.exists_place h
  exact canonicalPath_pathOf hreaches

end FileSystem

end ConnectionSecurity
