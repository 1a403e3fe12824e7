import ConnectionSecurity.Proofs.FileSystem.Canonical

/-!
# The seat of a file

A path has a seat if a file can be written there: the place of the file that it leads to, or the
vacant place where one would be made. What can be read and what can be written is said by the seat
alone (`read_eq_ok`, `write_eq_ok`). A path with a seat ends in a name, without a slash behind it
(`endsInName_of_seat?`), and its last name stands for no directory (`locate_stay_of_seat?`).

The walks that end well are described by a relation, `Walks`, with one constructor for each step of
a walk, and everything about the end of a walk is proved on it.
-/

namespace ConnectionSecurity

/-! ## The last piece of a path -/

theorem Path.getLast?_pieces {p : Path} (h : FileSystem.asksForDirectory p = true) :
    p.pieces.getLast? = some "" := by
  have hlast : p.toList.getLast? = some '/' := by
    simpa [FileSystem.asksForDirectory] using h
  rw [Path.pieces, List.getLast?_map, Text.getLast?_splitOnP hlast (by decide)]
  rfl

namespace FileSystem

variable {fs fs' : FileSystem} {mode : AtLink} {links : Nat} {here loc : Location} {node : Node}
  {pieces rest : List String} {piece : String} {found : Found} {p : Path} {content : Bytes}

/-! ## Walks that end well -/

/-- A piece that a walk looks for: not idle, not a double dot, and not too long. -/
structure IsName (piece : String) : Prop where
  not_idle : Path.isIdle piece = false
  not_up : (piece == "..") = false
  short : ¬nameLimit < Bytes.sizeOfText piece

/-- A walk ends at what it finds. -/
inductive Walks (fs : FileSystem) (mode : AtLink) :
    Nat → Location → List String → Found → Prop where
  | nil (links : Nat) (here : Location) : Walks fs mode links here [] (.node here .directory)
  | idle {links : Nat} {here : Location} {piece : String} {rest : List String} {found : Found}
      (hidle : Path.isIdle piece = true) (h : Walks fs mode links here rest found) :
      Walks fs mode links here (piece :: rest) found
  | up {links : Nat} {here : Location} {piece : String} {rest : List String} {found : Found}
      (hidle : Path.isIdle piece = false) (hup : (piece == "..") = true)
      (h : Walks fs mode links here.tail rest found) :
      Walks fs mode links here (piece :: rest) found
  | vacant {links : Nat} {here : Location} {piece : String} {rest : List String}
      (hname : IsName piece) (hlook : fs.look (piece :: here) = none)
      (hlast : isLast rest = true) :
      Walks fs mode links here (piece :: rest) (.vacant here piece !rest.isEmpty)
  | stay {links : Nat} {here : Location} {piece : String} {rest : List String} {node : Node}
      (hname : IsName piece) (hlook : fs.look (piece :: here) = some node)
      (hstay : (mode == .stay && isLast rest) = true) :
      Walks fs mode links here (piece :: rest) (.node (piece :: here) node)
  | down {links : Nat} {here : Location} {piece : String} {rest : List String} {found : Found}
      (hname : IsName piece) (hlook : fs.look (piece :: here) = some .directory)
      (hstay : (mode == .stay && isLast rest) = false)
      (h : Walks fs mode links (piece :: here) rest found) :
      Walks fs mode links here (piece :: rest) found
  | file {links : Nat} {here : Location} {piece : String} {content : Bytes}
      (hname : IsName piece) (hlook : fs.look (piece :: here) = some (.file content))
      (hfollow : mode = .follow) :
      Walks fs mode links here [piece] (.node (piece :: here) (.file content))
  | link {links : Nat} {here : Location} {piece : String} {rest : List String} {target : Path}
      {found : Found} (hname : IsName piece)
      (hlook : fs.look (piece :: here) = some (.link target))
      (hstay : (mode == .stay && isLast rest) = false)
      (h : Walks fs mode links (if target.isAbsolute then [] else here) (target.pieces ++ rest)
        found) :
      Walks fs mode (links + 1) here (piece :: rest) found

theorem IsName.walk (h : IsName piece) : fs.walk mode links here (piece :: rest) =
    match fs.look (piece :: here) with
    | none => if isLast rest then .ok (.vacant here piece !rest.isEmpty) else .error .notFound
    | some node =>
      if mode == .stay && isLast rest then .ok (.node (piece :: here) node)
      else
        match node with
        | .directory => fs.walk mode links (piece :: here) rest
        | .file content =>
          if rest.isEmpty then .ok (.node (piece :: here) (.file content))
          else .error .notADirectory
        | .link target =>
          match links with
          | 0 => .error .tooManyLinks
          | links + 1 =>
            fs.walk mode links (if target.isAbsolute then [] else here)
              (target.pieces ++ rest) := by
  rewrite [FileSystem.walk, if_neg (by simp [h.not_idle]), if_neg (by simp [h.not_up]),
    if_neg h.short]
  rfl

/-- The relation is what the function computes. -/
theorem walk_eq_ok : fs.walk mode links here pieces = .ok found ↔
    fs.Walks mode links here pieces found := by
  constructor
  · intro h
    -- On the recursion of the walk; the steps that end in an error are ruled out.
    induction links, here, pieces using walk.induct fs mode with
    | case1 links here =>
        rw [walk] at h
        cases h
        exact .nil links here
    | case2 links here piece rest hidle ih =>
        rw [walk, if_pos hidle] at h
        exact .idle hidle (ih h)
    | case3 links here piece rest hidle hup ih =>
        rw [walk, if_neg hidle, if_pos hup] at h
        exact .up (by simpa using hidle) hup (ih h)
    | case4 links here piece rest hidle hup hlong =>
        rw [walk, if_neg hidle, if_neg hup, if_pos hlong] at h
        cases h
    | case5 links here piece rest hidle hup hlong hlook hlast =>
        have hname : IsName piece := ⟨by simpa using hidle, by simpa using hup, hlong⟩
        simp only [hname.walk, hlook, hlast, if_true] at h
        cases h
        exact .vacant hname hlook hlast
    | case6 links here piece rest hidle hup hlong hlook hlast =>
        have hname : IsName piece := ⟨by simpa using hidle, by simpa using hup, hlong⟩
        simp [hname.walk, hlook, hlast] at h
    | case7 links here piece rest hidle hup hlong node hlook hstay =>
        have hname : IsName piece := ⟨by simpa using hidle, by simpa using hup, hlong⟩
        simp only [hname.walk, hlook, hstay, if_true] at h
        cases h
        exact .stay hname hlook hstay
    | case8 links here piece rest hidle hup hlong hstay hlook ih =>
        have hname : IsName piece := ⟨by simpa using hidle, by simpa using hup, hlong⟩
        simp only [hname.walk, hlook, hstay] at h
        exact .down hname hlook (by simpa using hstay) (ih h)
    | case9 links here piece rest hidle hup hlong hstay content hend hlook =>
        have hname : IsName piece := ⟨by simpa using hidle, by simpa using hup, hlong⟩
        simp only [hname.walk, hlook, hstay, hend] at h
        cases h
        obtain rfl := List.isEmpty_iff.1 hend
        refine .file hname hlook ?_
        cases mode with
        | follow => rfl
        | stay => exact absurd rfl hstay
    | case10 links here piece rest hidle hup hlong hstay content hend hlook =>
        have hname : IsName piece := ⟨by simpa using hidle, by simpa using hup, hlong⟩
        simp [hname.walk, hlook, hstay, hend] at h
    | case11 here piece rest hidle hup hlong hstay target hlook =>
        have hname : IsName piece := ⟨by simpa using hidle, by simpa using hup, hlong⟩
        simp [hname.walk, hlook, hstay] at h
    | case12 here piece rest hidle hup hlong hstay target links hlook ih =>
        have hname : IsName piece := ⟨by simpa using hidle, by simpa using hup, hlong⟩
        simp only [hname.walk, hlook, hstay] at h
        exact .link hname hlook (by simpa using hstay) (ih h)
  · intro h
    induction h with
    | nil => rw [walk]
    | idle hidle h ih => rw [walk, if_pos hidle, ih]
    | up hidle hup h ih => rw [walk, if_neg (by simp [hidle]), if_pos hup, ih]
    | vacant hname hlook hlast => simp [hname.walk, hlook, hlast]
    | stay hname hlook hstay => simp only [hname.walk, hlook, hstay, if_true]
    | down hname hlook hstay h ih => simp only [hname.walk, hlook, hstay, ih]; rfl
    | file hname hlook hfollow => subst hfollow; simp only [hname.walk, hlook]; rfl
    | link hname hlook hstay h ih => simp only [hname.walk, hlook, hstay, ih]; rfl

/-! ## Where a walk ends -/

/-- What was found is there, and what was found vacant is vacant. -/
def Found.IsIn (fs : FileSystem) : Found → Prop
  | .node loc node => node = .directory ∨ fs.look loc = some node
  | .vacant dir name _ => fs.look (name :: dir) = none

theorem Walks.isIn (h : fs.Walks mode links here pieces found) : found.IsIn fs := by
  induction h with
  | nil links here => exact .inl rfl
  | idle hidle h ih => exact ih
  | up hidle hup h ih => exact ih
  | vacant hname hlook hlast => exact hlook
  | stay hname hlook hstay => exact .inr hlook
  | down hname hlook hstay h ih => exact ih
  | file hname hlook hfollow => exact .inr hlook
  | link hname hlook hstay h ih => exact ih

/-- A walk that follows links does not end at one. -/
theorem Walks.ne_link (h : fs.Walks .follow links here pieces found) (target : Path) :
    found ≠ .node loc (.link target) := by
  induction h with
  | nil links here => nofun
  | idle hidle h ih => exact ih
  | up hidle hup h ih => exact ih
  | vacant hname hlook hlast => nofun
  | stay hname hlook hstay => cases hstay
  | down hname hlook hstay h ih => exact ih
  | file hname hlook hfollow => nofun
  | link hname hlook hstay h ih => exact ih

/-- The place of a file that was found, or of one that could be made. -/
def Found.seat? : Found → Option Location
  | .node loc (.file _) => some loc
  | .vacant dir name false => some (name :: dir)
  | _ => none

/-- A name, not a dot or a double dot, that no slash follows. -/
def EndsInName (pieces : List String) : Prop :=
  ∃ name, pieces.getLast? = some name ∧ IsName name

theorem EndsInName.cons (piece : String) (h : EndsInName rest) : EndsInName (piece :: rest) := by
  obtain ⟨name, hlast, hname⟩ := h
  refine ⟨name, ?_, hname⟩
  rw [List.getLast?_cons, hlast]
  rfl

theorem IsName.endsInName (h : IsName piece) : EndsInName [piece] := ⟨piece, rfl, h⟩

theorem EndsInName.path (h : EndsInName p.pieces) : p.endsInName = true := by
  obtain ⟨name, hlast, hname⟩ := h
  obtain ⟨before, hpieces⟩ := List.getLast?_eq_some_iff.1 hlast
  have hempty : (name == "") = false := (Bool.or_eq_false_iff.1 hname.not_idle).1
  have hdot : (name == ".") = false := (Bool.or_eq_false_iff.1 hname.not_idle).2
  simp only [Path.endsInName, hpieces, List.reverse_append, List.reverse_singleton,
    List.singleton_append, List.dropWhile_cons, hempty]
  simp [bne, hdot, hname.not_up]

/-- Nothing but slashes is no name. -/
theorem EndsInName.isLast_eq_false (h : EndsInName rest) : isLast rest = false := by
  obtain ⟨name, hlast, hname⟩ := h
  have hmem : name ∈ rest := List.mem_of_getLast? hlast
  cases hrest : isLast rest with
  | false => rfl
  | true =>
      obtain rfl : name = "" := by simpa using List.all_eq_true.1 hrest name hmem
      exact absurd hname.not_idle (by decide)

/-- Only a name leads to a seat. -/
theorem Walks.endsInName (h : fs.Walks .follow links here pieces found)
    (hseat : found.seat? = some loc) : EndsInName pieces := by
  induction h with
  | nil links here => cases hseat
  | idle hidle h ih => exact (ih hseat).cons _
  | up hidle hup h ih => exact (ih hseat).cons _
  | @vacant links here piece rest hname hlook hlast =>
      cases rest with
      | nil => exact hname.endsInName
      | cons q rest => cases hseat
  | stay hname hlook hstay => cases hstay
  | down hname hlook hstay h ih => exact (ih hseat).cons _
  | file hname hlook hfollow => exact hname.endsInName
  | @link links here piece rest target found hname hlook hstay h ih =>
      -- What stands behind the link is the end of the path; without it the link is.
      cases rest with
      | nil => exact hname.endsInName
      | cons q rest =>
          obtain ⟨name, hlast, hlastname⟩ := ih hseat
          refine EndsInName.cons piece ⟨name, ?_, hlastname⟩
          rwa [List.getLast?_append, List.getLast?_cons, Option.some_or, ← List.getLast?_cons]
            at hlast

/-- A walk to a seat that does not follow the last name ends there too, or at a link. -/
theorem Walks.exists_stay (h : fs.Walks .follow links here pieces found)
    (hseat : found.seat? = some loc) :
    fs.Walks .stay links here pieces found ∨
      ∃ x target, fs.Walks .stay links here pieces (.node x (.link target)) := by
  induction h with
  | nil links here => cases hseat
  | idle hidle h ih =>
      exact (ih hseat).imp (.idle hidle) fun ⟨x, target, h⟩ => ⟨x, target, .idle hidle h⟩
  | up hidle hup h ih =>
      exact (ih hseat).imp (.up hidle hup) fun ⟨x, target, h⟩ => ⟨x, target, .up hidle hup h⟩
  | vacant hname hlook hlast => exact .inl (.vacant hname hlook hlast)
  | stay hname hlook hstay => cases hstay
  | down hname hlook hstay h ih =>
      have hlast : (AtLink.stay == .stay && isLast _) = false :=
        (h.endsInName hseat).isLast_eq_false
      exact (ih hseat).imp (.down hname hlook hlast) fun ⟨x, target, h⟩ =>
        ⟨x, target, .down hname hlook hlast h⟩
  | file hname hlook hfollow => exact .inl (.stay hname hlook rfl)
  | @link links here piece rest target found hname hlook hstay h ih =>
      cases hlast : isLast rest with
      | true => exact .inr ⟨_, target, .stay hname hlook hlast⟩
      | false =>
          exact (ih hseat).imp (.link hname hlook hlast) fun ⟨x, target, h⟩ =>
            ⟨x, target, .link hname hlook hlast h⟩

/-! ## Paths with a seat -/

/-- A path that the system looks at: no NUL, not empty, and not too long. -/
structure Sendable (p : Path) : Prop where
  no_nul : '\x00' ∉ p.toList
  not_empty : p.isEmpty = false
  short : ¬pathLimit ≤ Bytes.sizeOfText p

/-- The directory that a path starts from. -/
def start (fs : FileSystem) (p : Path) : Location :=
  if p.isAbsolute then [] else fs.workingDirectory

/-- The system walks a path that it looks at. -/
theorem Sendable.locate_eq (h : Sendable p) :
    fs.locate mode p = fs.walk mode linkLimit (fs.start p) p.pieces := by
  rw [locate, if_neg (by simp [h.short]), walkFrom, if_neg (by simpa using h.no_nul),
    if_neg (by simp [h.not_empty]), start]

theorem locate_eq_ok : fs.locate mode p = .ok found ↔
    Sendable p ∧ fs.Walks mode linkLimit (fs.start p) p.pieces found := by
  rw [← walk_eq_ok]
  constructor
  · intro h
    have hsend : Sendable p := by
      unfold locate walkFrom at h
      split at h
      next => cases h
      next hlong =>
        split at h
        next => cases h
        next hnul =>
          split at h
          next => cases h
          next hempty =>
            have hnul : '\x00' ∉ p.toList := by simpa using hnul
            refine ⟨hnul, by simpa using hempty, ?_⟩
            simpa [hnul] using hlong
    exact ⟨hsend, hsend.locate_eq.symm.trans h⟩
  · rintro ⟨hsend, h⟩
    exact hsend.locate_eq.trans h

/-- The place where a path leads to a file, or where one could be made. -/
def seat? (fs : FileSystem) (p : Path) : Option Location :=
  match fs.locate .follow p with
  | .ok found => found.seat?
  | .error _ => none

theorem seat?_eq_some : fs.seat? p = some loc ↔
    ∃ found, fs.locate .follow p = .ok found ∧ found.seat? = some loc := by
  unfold seat?
  cases fs.locate .follow p <;> simp

theorem Found.seat?_eq_some : found.seat? = some loc ↔
    (∃ content, found = .node loc (.file content)) ∨
      ∃ dir name, loc = name :: dir ∧ found = .vacant dir name false := by
  constructor
  · intro h
    cases found with
    | node x node =>
        cases node with
        | file content =>
            obtain rfl := Option.some.inj h
            exact .inl ⟨content, rfl⟩
        | directory => cases h
        | link target => cases h
    | vacant dir name slash =>
        cases slash with
        | true => cases h
        | false =>
            obtain rfl := Option.some.inj h
            exact .inr ⟨dir, name, rfl, rfl⟩
  · rintro (⟨content, rfl⟩ | ⟨dir, name, rfl, rfl⟩)
    · rfl
    · rfl

/-- A seat holds a file or nothing, and that is what the path leads to. -/
theorem locate_of_seat? (h : fs.seat? p = some loc) :
    (∃ content, fs.look loc = some (.file content) ∧
      fs.locate .follow p = .ok (.node loc (.file content))) ∨
    ∃ dir name, loc = name :: dir ∧ fs.look loc = none ∧
      fs.locate .follow p = .ok (.vacant dir name false) := by
  obtain ⟨found, hfound, hseat⟩ := seat?_eq_some.1 h
  have hin := (locate_eq_ok.1 hfound).2.isIn
  rcases Found.seat?_eq_some.1 hseat with ⟨content, rfl⟩ | ⟨dir, name, rfl, rfl⟩
  · rcases hin with hdir | hlook
    · cases hdir
    · exact .inl ⟨content, hlook, hfound⟩
  · exact .inr ⟨dir, name, rfl, hin, hfound⟩

/-- A path with a seat ends in a name that no slash follows. -/
theorem endsInName_of_seat? (h : fs.seat? p = some loc) : EndsInName p.pieces := by
  obtain ⟨found, hfound, hseat⟩ := seat?_eq_some.1 h
  exact (locate_eq_ok.1 hfound).2.endsInName hseat

theorem asksForDirectory_of_seat? (h : fs.seat? p = some loc) : asksForDirectory p = false := by
  obtain ⟨name, hlast, hname⟩ := endsInName_of_seat? h
  cases hasks : asksForDirectory p with
  | false => rfl
  | true =>
      obtain rfl : name = "" := by simpa [hlast] using Path.getLast?_pieces hasks
      exact absurd hname.not_idle (by decide)

/-- The last name of a path with a seat stands for the file, for nothing, or for a link. -/
theorem locate_stay_of_seat? (h : fs.seat? p = some loc) :
    fs.locate .stay p = fs.locate .follow p ∨
      ∃ x target, fs.locate .stay p = .ok (.node x (.link target)) := by
  obtain ⟨found, hfound, hseat⟩ := seat?_eq_some.1 h
  obtain ⟨hsend, hw⟩ := locate_eq_ok.1 hfound
  rcases hw.exists_stay hseat with hstay | ⟨x, target, hlink⟩
  · exact .inl ((locate_eq_ok.2 ⟨hsend, hstay⟩).trans hfound.symm)
  · exact .inr ⟨x, target, locate_eq_ok.2 ⟨hsend, hlink⟩⟩

/-- A name at the root is seated there, unless it stands for a directory or a link. -/
theorem seat?_root {name : String} (hname : IsName name) (hslash : '/' ∉ name.toList)
    (hnul : '\x00' ∉ name.toList)
    (hlook : fs.look [name] = none ∨ ∃ content, fs.look [name] = some (.file content)) :
    fs.seat? ("/" ++ name) = some [name] := by
  have hpath : "/" ++ name = "/".intercalate ["", name] := by
    rw [String.intercalate_cons_of_ne_nil (by simp)]
    rfl
  have hpieces : Path.pieces ("/" ++ name) = ["", name] := by
    rw [hpath]
    refine Path.pieces_intercalate ?_ (by simp)
    intro piece hpiece
    rcases List.mem_cons.1 hpiece with rfl | hpiece
    · simp
    · rwa [List.mem_singleton.1 hpiece]
  have habsolute : Path.isAbsolute ("/" ++ name) = true := by simp [Path.isAbsolute]
  have hsend : Sendable ("/" ++ name) := by
    refine ⟨by simpa using hnul, ?_, ?_⟩
    · rw [Bool.eq_false_iff]
      intro hempty
      have hlength := congrArg String.length (String.isEmpty_iff.1 hempty)
      simp at hlength
    · have hshort := hname.short
      simp only [Bytes.sizeOfText, nameLimit, pathLimit, String.utf8ByteSize_append] at hshort ⊢
      have hsize : "/".utf8ByteSize = 1 := by decide
      omega
  have hstart : fs.start ("/" ++ name) = [] := by rw [start, if_pos habsolute]
  obtain ⟨found, hwalk, hseat⟩ : ∃ found, fs.Walks .follow linkLimit [] [name] found ∧
      found.seat? = some [name] := by
    rcases hlook with hnone | ⟨content, hfile⟩
    · exact ⟨_, .vacant hname hnone rfl, rfl⟩
    · exact ⟨_, .file hname hfile rfl, rfl⟩
  refine seat?_eq_some.2 ⟨found, locate_eq_ok.2 ⟨hsend, ?_⟩, hseat⟩
  rw [hpieces, hstart]
  exact .idle (by decide) hwalk

/-! ## Reading and writing -/

theorem nodeAt_eq_ok : fs.nodeAt p = .ok node ↔
    ∃ loc, fs.locate .follow p = .ok (.node loc node) := by
  unfold nodeAt
  rw [Except.bind_eq_ok]
  constructor
  · rintro ⟨found, hfound, h⟩
    cases found with
    | vacant => cases h
    | node loc node =>
        cases h
        exact ⟨loc, hfound⟩
  · rintro ⟨loc, h⟩
    exact ⟨_, h, rfl⟩

/-- **What is read** is the file in the seat of the path. -/
theorem read_eq_ok : fs.read p = .ok content ↔
    ∃ loc, fs.seat? p = some loc ∧ fs.look loc = some (.file content) := by
  unfold read
  rw [Except.bind_eq_ok]
  constructor
  · rintro ⟨node, hnode, h⟩
    obtain ⟨loc, hfound⟩ := nodeAt_eq_ok.1 hnode
    cases node with
    | file found =>
        cases h
        have hseat : fs.seat? p = some loc := seat?_eq_some.2 ⟨_, hfound, rfl⟩
        rcases (locate_eq_ok.1 hfound).2.isIn with hdir | hlook
        · cases hdir
        · exact ⟨loc, hseat, hlook⟩
    | directory => cases h
    | link target => cases h
  · rintro ⟨loc, hseat, hlook⟩
    rcases locate_of_seat? hseat with ⟨there, hthere, hfound⟩ | ⟨dir, name, -, hnone, -⟩
    · cases hlook.symm.trans hthere
      exact ⟨_, nodeAt_eq_ok.2 ⟨loc, hfound⟩, rfl⟩
    · cases hlook.symm.trans hnone

/-- **What is read by a path** that is not too long is what is read by its canonical path. -/
theorem Tidy.read_of_canonicalPath (hfs : fs.Tidy) {c : Path} (hc : fs.canonicalPath p = .ok c)
    (hshort : ¬pathLimit ≤ Bytes.sizeOfText p) (h : fs.read c = .ok content) :
    fs.read p = .ok content := by
  obtain ⟨loc, node, hwalk, hreaches, rfl⟩ := hfs.exists_place hc
  obtain ⟨place, hseat, hlook⟩ := read_eq_ok.1 h
  obtain ⟨found, hfound, hat⟩ := seat?_eq_some.1 hseat
  -- Both paths lead to the same place.
  have hcanonical : fs.walkFrom .follow (pathOf loc) = .ok found := by
    unfold locate at hfound
    split at hfound
    · cases hfound
    · exact hfound
  obtain rfl : found = .node loc node :=
    Except.ok.inj (hcanonical.symm.trans (walkFrom_pathOf hreaches))
  have hplace : fs.locate .follow p = .ok (.node loc node) := by
    rw [locate, if_neg (by simp [hshort]), hwalk]
  exact read_eq_ok.2 ⟨place, seat?_eq_some.2 ⟨_, hplace, hat⟩, hlook⟩

theorem readText_eq_ok {text : String} : fs.readText p = .ok text ↔
    ∃ content, fs.read p = .ok content ∧ content.text? = some text := by
  unfold readText
  rw [Except.bind_eq_ok]
  refine exists_congr fun content => and_congr_right fun _ => ?_
  cases content.text? with
  | none => exact ⟨nofun, nofun⟩
  | some s => simp

/-- **What is written** is a file in the seat of the path, and nothing else. -/
theorem write_eq_ok : fs.write p content = .ok fs' ↔
    ∃ loc, fs.seat? p = some loc ∧ fs' = fs.put loc (.file content) := by
  constructor
  · intro h
    unfold write at h
    split at h
    next hasks =>
      obtain ⟨_, -, h⟩ := Except.bind_eq_ok.1 h
      cases h
    next hasks =>
      obtain ⟨found, hfound, h⟩ := Except.bind_eq_ok.1 h
      have hseat : ∀ loc, found.seat? = some loc → fs.seat? p = some loc := fun loc hloc =>
        seat?_eq_some.2 ⟨found, hfound, hloc⟩
      cases found with
      | node loc node =>
          cases node with
          | file old =>
              cases h
              exact ⟨loc, hseat loc rfl, rfl⟩
          | directory => cases h
          | link target => cases h
      | vacant dir name slash =>
          cases slash with
          | true => cases h
          | false =>
              cases h
              exact ⟨name :: dir, hseat _ rfl, rfl⟩
  · rintro ⟨loc, hseat, rfl⟩
    have hasks := asksForDirectory_of_seat? hseat
    unfold write
    rw [if_neg (by simp [hasks])]
    rcases locate_of_seat? hseat with ⟨there, -, hfound⟩ | ⟨dir, name, rfl, -, hfound⟩
    · rw [hfound]
      rfl
    · rw [hfound]
      rfl

end FileSystem

end ConnectionSecurity
