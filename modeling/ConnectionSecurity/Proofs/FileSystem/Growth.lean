import ConnectionSecurity.Proofs.FileSystem.Seat

/-!
# What stays when files and directories are made

A walk is steered by directories and links. So as long as these stay (`Steers`), a path keeps its
seat (`Steers.seat?_eq_some`), and reading it gives the same unless the file in that seat was
written (`Steers.read_eq_ok`). Writing a file into a seat steers every walk as before. If everything
stays that is there (`Stays`), a path leads to what it led to; making directories is an example
(`Grows`).

A file that was written gives way only to a path that has no seat: between two seats renaming cannot
fail (`exists_rename`).
-/

namespace ConnectionSecurity.FileSystem

variable {fs fs' fs'' : FileSystem} {mode : AtLink} {links : Nat} {here loc : Location}
  {node : Node} {pieces : List String} {found : Found} {p q : Path} {content : Bytes}

/-! ## Walks that are steered alike -/

/-- Directories and links stay. -/
structure Steers (fs fs' : FileSystem) : Prop where
  workingDirectory : fs'.workingDirectory = fs.workingDirectory
  directory : ∀ loc, fs.look loc = some .directory → fs'.look loc = some .directory
  link : ∀ loc target, fs.look loc = some (.link target) → fs'.look loc = some (.link target)

theorem Steers.trans (h : Steers fs fs') (h' : Steers fs' fs'') : Steers fs fs'' where
  workingDirectory := h'.workingDirectory.trans h.workingDirectory
  directory loc hloc := h'.directory loc (h.directory loc hloc)
  link loc target hloc := h'.link loc target (h.link loc target hloc)

theorem Steers.look_eq_some (h : Steers fs fs') (hnode : ∀ content, node ≠ .file content)
    (hloc : fs.look loc = some node) : fs'.look loc = some node := by
  cases node with
  | directory => exact h.directory loc hloc
  | link target => exact h.link loc target hloc
  | file content => exact absurd rfl (hnode content)

/-- A walk that ends in a directory or a link ends there again. -/
theorem Steers.walks_node (h : Steers fs fs') (hnode : ∀ content, node ≠ .file content)
    (hw : fs.Walks mode links here pieces (.node loc node)) :
    fs'.Walks mode links here pieces (.node loc node) := by
  generalize hfound : Found.node loc node = found at hw
  induction hw with
  | nil links here =>
      cases hfound
      exact .nil _ _
  | idle hidle hw ih => exact .idle hidle (ih hfound)
  | up hidle hup hw ih => exact .up hidle hup (ih hfound)
  | vacant hname hlook hlast => cases hfound
  | stay hname hlook hstay =>
      cases hfound
      exact .stay hname (h.look_eq_some hnode hlook) hstay
  | down hname hlook hstay hw ih => exact .down hname (h.directory _ hlook) hstay (ih hfound)
  | file hname hlook hfollow =>
      cases hfound
      exact absurd rfl (hnode _)
  | link hname hlook hstay hw ih => exact .link hname (h.link _ _ hlook) hstay (ih hfound)

/-- A walk to a seat ends there again if a file or nothing is there. -/
theorem Steers.walks_seat (h : Steers fs fs') (hw : fs.Walks .follow links here pieces found)
    (hseat : found.seat? = some loc)
    (hloc : fs'.look loc = none ∨ ∃ content, fs'.look loc = some (.file content)) :
    ∃ found', fs'.Walks .follow links here pieces found' ∧ found'.seat? = some loc := by
  induction hw with
  | nil links here => cases hseat
  | idle hidle hw ih =>
      obtain ⟨found', hw', hseat'⟩ := ih hseat
      exact ⟨found', .idle hidle hw', hseat'⟩
  | up hidle hup hw ih =>
      obtain ⟨found', hw', hseat'⟩ := ih hseat
      exact ⟨found', .up hidle hup hw', hseat'⟩
  | @vacant links here piece rest hname hlook hlast =>
      cases rest with
      | cons q rest => cases hseat
      | nil =>
          obtain rfl := Option.some.inj hseat
          rcases hloc with hnone | ⟨content, hfile⟩
          · exact ⟨_, .vacant hname hnone rfl, rfl⟩
          · exact ⟨_, .file hname hfile rfl, rfl⟩
  | stay hname hlook hstay => cases hstay
  | down hname hlook hstay hw ih =>
      obtain ⟨found', hw', hseat'⟩ := ih hseat
      exact ⟨found', .down hname (h.directory _ hlook) hstay hw', hseat'⟩
  | file hname hlook hfollow =>
      obtain rfl := Option.some.inj hseat
      rcases hloc with hnone | ⟨content, hfile⟩
      · exact ⟨_, .vacant hname hnone rfl, rfl⟩
      · exact ⟨_, .file hname hfile rfl, rfl⟩
  | link hname hlook hstay hw ih =>
      obtain ⟨found', hw', hseat'⟩ := ih hseat
      exact ⟨found', .link hname (h.link _ _ hlook) hstay hw', hseat'⟩

theorem Steers.start_eq (h : Steers fs fs') (p : Path) : fs'.start p = fs.start p := by
  unfold start
  rw [h.workingDirectory]

/-- **A path keeps its seat** if a file or nothing is there. -/
theorem Steers.seat?_eq_some (h : Steers fs fs') (hseat : fs.seat? p = some loc)
    (hloc : fs'.look loc = none ∨ ∃ content, fs'.look loc = some (.file content)) :
    fs'.seat? p = some loc := by
  obtain ⟨found, hfound, hseat⟩ := FileSystem.seat?_eq_some.1 hseat
  obtain ⟨hsend, hw⟩ := locate_eq_ok.1 hfound
  obtain ⟨found', hw', hseat'⟩ := h.walks_seat hw hseat hloc
  rw [← h.start_eq] at hw'
  exact FileSystem.seat?_eq_some.2 ⟨found', locate_eq_ok.2 ⟨hsend, hw'⟩, hseat'⟩

/-- A file that stays in its seat is read as before. -/
theorem Steers.read_eq_ok (h : Steers fs fs') (hseat : fs.seat? p = some loc)
    (hloc : fs'.look loc = some (.file content)) : fs'.read p = .ok content :=
  FileSystem.read_eq_ok.2 ⟨loc, h.seat?_eq_some hseat (.inr ⟨content, hloc⟩), hloc⟩

theorem Steers.locate_eq_ok (h : Steers fs fs') (hnode : ∀ content, node ≠ .file content)
    (hp : fs.locate mode p = .ok (.node loc node)) : fs'.locate mode p = .ok (.node loc node) := by
  obtain ⟨hsend, hw⟩ := FileSystem.locate_eq_ok.1 hp
  have hw' := h.walks_node hnode hw
  rw [← h.start_eq] at hw'
  exact FileSystem.locate_eq_ok.2 ⟨hsend, hw'⟩

theorem Steers.nodeAt_directory (h : Steers fs fs') (hp : fs.nodeAt p = .ok .directory) :
    fs'.nodeAt p = .ok .directory := by
  obtain ⟨loc, hfound⟩ := nodeAt_eq_ok.1 hp
  exact nodeAt_eq_ok.2 ⟨loc, h.locate_eq_ok nofun hfound⟩

/-! ### Writing -/

theorem look_put_of_ne {x : Location} (hx : x ≠ loc) (node : Node) :
    (fs.put loc node).look x = fs.look x := by
  cases x with
  | nil => rfl
  | cons name dir => simp [hx]

/-- The root is a directory, so it is no seat. -/
theorem ne_nil_of_seat? (hseat : fs.seat? p = some loc) : loc ≠ [] := by
  rcases locate_of_seat? hseat with ⟨there, hthere, -⟩ | ⟨dir, name, rfl, -⟩
  · rintro rfl
    cases hthere
  · exact List.cons_ne_nil name dir

/-- Neither is the place of a directory or of a link. -/
theorem ne_of_seat? {x : Location} (hseat : fs.seat? p = some loc) (hx : fs.look x = some node)
    (hnode : ∀ content, node ≠ .file content) : x ≠ loc := by
  rintro rfl
  rcases locate_of_seat? hseat with ⟨there, hthere, -⟩ | ⟨dir, name, -, hnone, -⟩
  · exact hnode there (Option.some.inj (hx.symm.trans hthere))
  · cases hx.symm.trans hnone

theorem look_put_of_ne_nil (h : loc ≠ []) (fs : FileSystem) (node : Node) :
    (fs.put loc node).look loc = some node := by
  obtain ⟨name, dir, rfl⟩ := List.exists_cons_of_ne_nil h
  exact look_put_self fs name dir node

/-- What was put at a seat is there. -/
theorem look_put_seat (hseat : fs.seat? p = some loc) (node : Node) :
    (fs.put loc node).look loc = some node :=
  look_put_of_ne_nil (ne_nil_of_seat? hseat) fs node

/-- A file takes the place of no directory and of no link. -/
theorem steers_put_seat (hseat : fs.seat? p = some loc) (content : Bytes) :
    Steers fs (fs.put loc (.file content)) ∧ Steers (fs.put loc (.file content)) fs := by
  have hput := look_put_seat hseat (.file content)
  have hne' : ∀ x node, (fs.put loc (.file content)).look x = some node →
      (∀ content, node ≠ .file content) → x ≠ loc := by
    rintro x node hx hfile rfl
    exact hfile content (Option.some.inj (hx.symm.trans hput))
  constructor
  · refine ⟨rfl, fun x hx => ?_, fun x target hx => ?_⟩
    · rw [look_put_of_ne (ne_of_seat? hseat hx nofun), hx]
    · rw [look_put_of_ne (ne_of_seat? hseat hx nofun), hx]
  · refine ⟨rfl, fun x hx => ?_, fun x target hx => ?_⟩
    · rw [← look_put_of_ne (hne' x _ hx nofun) (.file content), hx]
    · rw [← look_put_of_ne (hne' x _ hx nofun) (.file content), hx]

/-- All seats stay. -/
theorem seat?_put {loc' : Location} (hseat : fs.seat? p = some loc) (hq : fs.seat? q = some loc')
    (content : Bytes) : (fs.put loc (.file content)).seat? q = some loc' := by
  refine (steers_put_seat hseat content).1.seat?_eq_some hq ?_
  by_cases hsame : loc' = loc
  · subst hsame
    exact .inr ⟨content, look_put_seat hseat _⟩
  · rw [look_put_of_ne hsame]
    rcases locate_of_seat? hq with ⟨there, hthere, -⟩ | ⟨dir, name, -, hnone, -⟩
    · exact .inr ⟨there, hthere⟩
    · exact .inl hnone

/-- A last name that is no link is none afterwards. -/
theorem locate_stay_put {loc' : Location} (hseat : fs.seat? p = some loc)
    (hq : fs.seat? q = some loc') (hname : fs.locate .stay q = fs.locate .follow q)
    (content : Bytes) : (fs.put loc (.file content)).locate .stay q =
      (fs.put loc (.file content)).locate .follow q := by
  rcases locate_stay_of_seat? (seat?_put hseat hq content) with hsame | ⟨x, target, hlink⟩
  · exact hsame
  · have hnode : ∀ content, Node.link target ≠ .file content := nofun
    have hback := (steers_put_seat hseat content).2.locate_eq_ok hnode hlink
    have hfollow := (locate_eq_ok.1 (hname.symm.trans hback)).2
    exact absurd rfl (hfollow.ne_link target)

/-- A path that does not get a seat does not come to lead anywhere. -/
theorem pathExists_put (hseat : fs.seat? p = some loc)
    (hq : (fs.put loc (.file content)).seat? q = none) (hmissing : fs.pathExists q = false) :
    (fs.put loc (.file content)).pathExists q = false := by
  unfold pathExists at hmissing ⊢
  cases hnode : (fs.put loc (.file content)).nodeAt q with
  | error e => rfl
  | ok node =>
      obtain ⟨x, hfound⟩ := nodeAt_eq_ok.1 hnode
      cases node with
      | directory =>
          have hback := (steers_put_seat hseat content).2.nodeAt_directory hnode
          rw [hback] at hmissing
          exact hmissing
      | file there => cases hq.symm.trans (seat?_eq_some.2 ⟨_, hfound, rfl⟩)
      | link target => exact absurd rfl ((locate_eq_ok.1 hfound).2.ne_link target)

/-- What was written is read, by every path to the same seat. -/
theorem read_put_seat (hseat : fs.seat? p = some loc) (hq : fs.seat? q = some loc) :
    (fs.put loc (.file content)).read q = .ok content :=
  (steers_put_seat hseat content).1.read_eq_ok hq (look_put_seat hseat _)

/-- A file in another seat is read as before. -/
theorem read_put_of_ne (hseat : fs.seat? p = some loc) (hq : fs.read q = .ok content)
    (hne : fs.seat? q ≠ some loc) (written : Bytes) :
    (fs.put loc (.file written)).read q = .ok content := by
  obtain ⟨x, hx, hlook⟩ := read_eq_ok.1 hq
  refine (steers_put_seat hseat written).1.read_eq_ok hx ?_
  rw [look_put_of_ne, hlook]
  rintro rfl
  exact hne hx

/-! ## What is there stays -/

/-- Everything that is there stays. -/
structure Stays (fs fs' : FileSystem) : Prop where
  workingDirectory : fs'.workingDirectory = fs.workingDirectory
  look : ∀ loc node, fs.look loc = some node → fs'.look loc = some node

namespace Stays

theorem steers (h : Stays fs fs') : Steers fs fs' where
  workingDirectory := h.workingDirectory
  directory loc := h.look loc _
  link loc _ := h.look loc _

/-- A walk to something that is there leads there again. -/
theorem walks (h : Stays fs fs') (hw : fs.Walks mode links here pieces (.node loc node)) :
    fs'.Walks mode links here pieces (.node loc node) := by
  generalize hfound : Found.node loc node = found at hw
  induction hw with
  | nil links here => exact .nil _ _
  | idle hidle hw ih => exact .idle hidle (ih hfound)
  | up hidle hup hw ih => exact .up hidle hup (ih hfound)
  | vacant hname hlook hlast => cases hfound
  | stay hname hlook hstay => exact .stay hname (h.look _ _ hlook) hstay
  | down hname hlook hstay hw ih => exact .down hname (h.look _ _ hlook) hstay (ih hfound)
  | file hname hlook hfollow => exact .file hname (h.look _ _ hlook) hfollow
  | link hname hlook hstay hw ih => exact .link hname (h.look _ _ hlook) hstay (ih hfound)

theorem walkFrom_eq_ok (h : Stays fs fs') (hp : fs.walkFrom mode p = .ok (.node loc node)) :
    fs'.walkFrom mode p = .ok (.node loc node) := by
  unfold walkFrom at hp ⊢
  split at hp
  next => cases hp
  next hnul =>
    split at hp
    next => cases hp
    next hempty =>
      rw [if_neg hnul, if_neg hempty, h.workingDirectory]
      exact walk_eq_ok.2 (h.walks (walk_eq_ok.1 hp))

theorem locate_eq_ok (h : Stays fs fs') (hp : fs.locate mode p = .ok (.node loc node)) :
    fs'.locate mode p = .ok (.node loc node) := by
  unfold locate at hp ⊢
  split at hp
  next => cases hp
  next hshort => rw [if_neg hshort, h.walkFrom_eq_ok hp]

/-- What a path leads to stays. -/
theorem nodeAt_eq_ok (h : Stays fs fs') (hp : fs.nodeAt p = .ok node) :
    fs'.nodeAt p = .ok node := by
  obtain ⟨loc, hfound⟩ := FileSystem.nodeAt_eq_ok.1 hp
  exact FileSystem.nodeAt_eq_ok.2 ⟨loc, h.locate_eq_ok hfound⟩

/-- Every file is read as before. -/
theorem read_eq_ok (h : Stays fs fs') (hp : fs.read p = .ok content) :
    fs'.read p = .ok content := by
  obtain ⟨loc, hseat, hlook⟩ := FileSystem.read_eq_ok.1 hp
  exact h.steers.read_eq_ok hseat (h.look _ _ hlook)

theorem canonicalPath_eq_ok (h : Stays fs fs') (hp : fs.canonicalPath p = .ok q) :
    fs'.canonicalPath p = .ok q := by
  obtain ⟨found, hfound, hq⟩ := Except.bind_eq_ok.1 hp
  cases found with
  | vacant => cases hq
  | node loc node =>
      rw [canonicalPath, h.walkFrom_eq_ok hfound]
      exact hq

end Stays

/-! ### Making directories -/

/-- Everything stays, and what is new are directories. -/
structure Grows (fs fs' : FileSystem) : Prop where
  workingDirectory : fs'.workingDirectory = fs.workingDirectory
  look : ∀ loc, fs'.look loc = fs.look loc ∨
    fs.look loc = none ∧ fs'.look loc = some .directory

theorem Grows.refl (fs : FileSystem) : Grows fs fs := ⟨rfl, fun _ => .inl rfl⟩

theorem Grows.trans (h : Grows fs fs') (h' : Grows fs' fs'') : Grows fs fs'' where
  workingDirectory := h'.workingDirectory.trans h.workingDirectory
  look loc := by
    rcases h.look loc with hsame | ⟨hnone, hdir⟩
    · rw [← hsame]
      exact h'.look loc
    · rcases h'.look loc with hsame' | ⟨hnone', -⟩
      · exact .inr ⟨hnone, hsame'.trans hdir⟩
      · cases hdir.symm.trans hnone'

theorem Grows.stays (h : Grows fs fs') : Stays fs fs' where
  workingDirectory := h.workingDirectory
  look loc node hloc := by
    rcases h.look loc with hsame | ⟨hnone, -⟩
    · rw [hsame, hloc]
    · cases hloc.symm.trans hnone

theorem grows_createDirectory (h : fs.createDirectory p = .ok fs') : Grows fs fs' := by
  unfold createDirectory at h
  obtain ⟨found, hfound, h⟩ := Except.bind_eq_ok.1 h
  cases found with
  | node loc node => cases h
  | vacant dir name slash =>
      cases h
      have hnone : fs.look (name :: dir) = none := (locate_eq_ok.1 hfound).2.isIn
      refine ⟨rfl, fun x => ?_⟩
      by_cases hx : x = name :: dir
      · subst hx
        exact .inr ⟨hnone, look_put_self fs name dir _⟩
      · exact .inl (look_put_of_ne hx _)

/-- Making directories one in the other leaves all that is there, also if it stops on the way. -/
theorem grows_createAlong (paths : List Path) (fs : FileSystem) :
    Grows fs (fs.createAlong paths).2 := by
  induction paths generalizing fs with
  | nil => exact .refl fs
  | cons p outer ih =>
      have houter := ih fs
      have hthere : ∀ (made : FileSystem) (e : IoError), Grows fs made →
          Grows fs (if made.isDirectory p then ((.ok () : Except IoError Unit), made)
            else (.error e, made)).2 := by
        intro made e hmade
        split
        · exact hmade
        · exact hmade
      unfold createAlong
      cases hmake : fs.createDirectory p with
      | ok made => exact grows_createDirectory hmake
      | error e =>
          cases e with
          | notFound =>
              -- The directories around it are made first, then it is tried once more.
              cases hmade : fs.createAlong outer with
              | mk result made =>
                  rw [hmade] at houter
                  cases result with
                  | error e => exact houter
                  | ok =>
                      simp only
                      cases hagain : made.createDirectory p with
                      | ok last => exact houter.trans (grows_createDirectory hagain)
                      | error e => exact hthere made e houter
          | _ => exact hthere fs _ (.refl fs)

theorem grows_createDirectories (fs : FileSystem) (p : Path) :
    Grows fs (fs.createDirectories p).2 :=
  grows_createAlong (ancestors p.anchor p.body) fs

/-! ### Renaming -/

/-- Where a path with a seat leads if its last name is not followed, there is no directory. -/
theorem exists_locate_stay (h : fs.seat? p = some loc) : ∃ found, fs.locate .stay p = .ok found ∧
    (∀ x, found ≠ .node x .directory) ∧
    ∀ content, fs.look loc = some (.file content) → ∃ x thing, found = .node x thing := by
  rcases locate_stay_of_seat? h with hsame | ⟨x, target, hlink⟩
  · rcases locate_of_seat? h with ⟨there, hthere, hfound⟩ | ⟨dir, name, -, hnone, hfound⟩
    · exact ⟨_, hsame.trans hfound, nofun, fun _ _ => ⟨loc, _, rfl⟩⟩
    · refine ⟨_, hsame.trans hfound, nofun, fun content hfile => ?_⟩
      cases hfile.symm.trans hnone
  · exact ⟨_, hlink, nofun, fun _ _ => ⟨x, _, rfl⟩⟩

/-- Without links nothing is gained by following the last name. -/
theorem locate_stay_of_no_link (h : ∀ x target, fs.look x ≠ some (.link target))
    (hp : fs.seat? p = some loc) : fs.locate .stay p = fs.locate .follow p := by
  rcases locate_stay_of_seat? hp with hsame | ⟨x, target, hlink⟩
  · exact hsame
  · rcases (locate_eq_ok.1 hlink).2.isIn with hdir | hlook
    · cases hdir
    · exact absurd hlook (h x target)

/-- The place that was found, vacant or not. -/
def Found.place : Found → Location
  | .node loc _ => loc
  | .vacant dir name _ => name :: dir

/-- What renaming does between two seats: the thing at the first takes the place of what the second
leads to. -/
theorem rename_eq {loc' old : Location} {thing : Node} (hp : fs.seat? p = some loc)
    (hq : fs.seat? q = some loc') (hmoved : fs.locate .stay p = .ok (.node old thing))
    (hfound : fs.locate .stay q = .ok found) :
    fs.rename p q = .ok (if found.place = old then fs
      else (fs.drop old).put found.place thing) := by
  obtain ⟨moved, hmoved', hthing, -⟩ := exists_locate_stay hp
  obtain rfl := Except.ok.inj (hmoved.symm.trans hmoved')
  obtain ⟨found', hfound', hthere, -⟩ := exists_locate_stay hq
  obtain rfl := Except.ok.inj (hfound.symm.trans hfound')
  have hkind : (thing == .directory) = false := by simpa using fun h => hthing old (congrArg _ h)
  have hnames : (!p.endsInName || !q.endsInName) = false := by
    simp [(endsInName_of_seat? hp).path, (endsInName_of_seat? hq).path]
  have hasks := asksForDirectory_of_seat? hq
  unfold rename
  rw [hmoved, hfound]
  cases found with
  | vacant dir name slash =>
      -- A vacant place is not the one that the thing is taken from.
      have hne : name :: dir ≠ old := by
        rintro rfl
        have hnone : fs.look (name :: dir) = none := (locate_eq_ok.1 hfound).2.isIn
        rcases (locate_eq_ok.1 hmoved).2.isIn with rfl | hsome
        · exact hthing _ rfl
        · cases hnone.symm.trans hsome
      simp [bind, Except.bind, hnames, hasks, pure, Except.pure, Found.place, hne]
  | node new there =>
      have hthere : (there == .directory) = false := by
        simpa using fun h => hthere new (congrArg _ h)
      by_cases hsame : new = old
      · simp [bind, Except.bind, hnames, hasks, pure, Except.pure, Found.place, hsame]
      · simp [bind, Except.bind, hnames, hasks, hkind, hthere, pure, Except.pure, Found.place,
          hsame]

/-- **Between two seats renaming cannot fail**, if there is a file in the first. -/
theorem exists_rename (hp : fs.seat? p = some loc) (hfile : fs.look loc = some (.file content))
    {loc' : Location} (hq : fs.seat? q = some loc') : ∃ fs', fs.rename p q = .ok fs' := by
  obtain ⟨moved, hmoved, -, hnode⟩ := exists_locate_stay hp
  obtain ⟨old, thing, rfl⟩ := hnode content hfile
  obtain ⟨found, hfound, -, -⟩ := exists_locate_stay hq
  exact ⟨_, rename_eq hp hq hmoved hfound⟩

theorem look_drop_of_ne {x : Location} (hx : x ≠ loc) : (fs.drop loc).look x = fs.look x := by
  cases x with
  | nil => rfl
  | cons name dir => simp [hx]

/-- A path whose last name is no link ends at its seat also if this name is not followed. -/
theorem place_of_locate_stay (hq : fs.seat? q = some loc)
    (hname : fs.locate .stay q = fs.locate .follow q) :
    ∃ found, fs.locate .stay q = .ok found ∧ found.place = loc := by
  rcases locate_of_seat? hq with ⟨content, -, hfound⟩ | ⟨dir, name, rfl, -, hfound⟩
  · exact ⟨_, hname.trans hfound, rfl⟩
  · exact ⟨_, hname.trans hfound, rfl⟩

/-- What renaming does if neither name is a link: the file moves from its seat to the other. -/
theorem rename_seats {loc' : Location} (hp : fs.seat? p = some loc)
    (hfile : fs.look loc = some (.file content)) (hq : fs.seat? q = some loc')
    (hpname : fs.locate .stay p = fs.locate .follow p)
    (hqname : fs.locate .stay q = fs.locate .follow q) :
    fs.rename p q =
      .ok (if loc' = loc then fs else (fs.drop loc).put loc' (.file content)) := by
  have hmoved : fs.locate .stay p = .ok (.node loc (.file content)) := by
    rcases locate_of_seat? hp with ⟨there, hthere, hfound⟩ | ⟨dir, name, -, hnone, -⟩
    · obtain rfl : content = there := by simpa using hfile.symm.trans hthere
      exact hpname.trans hfound
    · cases hfile.symm.trans hnone
  obtain ⟨found, hfound, rfl⟩ := place_of_locate_stay hq hqname
  exact rename_eq hp hq hmoved hfound

/-- **A file that is renamed is read by its new name**, if neither name is a link. -/
theorem read_rename {loc' : Location} (hp : fs.seat? p = some loc)
    (hfile : fs.look loc = some (.file content)) (hq : fs.seat? q = some loc')
    (hpname : fs.locate .stay p = fs.locate .follow p)
    (hqname : fs.locate .stay q = fs.locate .follow q) (h : fs.rename p q = .ok fs') :
    fs'.read q = .ok content := by
  rw [rename_seats hp hfile hq hpname hqname] at h
  split at h
  next hsame =>
    -- A file that takes its own place stays.
    cases h
    exact read_eq_ok.2 ⟨_, hq, hsame ▸ hfile⟩
  next hne =>
    cases h
    have hold : ∀ x node, fs.look x = some node → (∀ content, node ≠ .file content) →
        ((fs.drop loc).put loc' (.file content)).look x = some node := by
      intro x node hx hnode
      rw [look_put_of_ne (ne_of_seat? hq hx hnode), look_drop_of_ne (ne_of_seat? hp hx hnode), hx]
    have hsteers : Steers fs ((fs.drop loc).put loc' (.file content)) :=
      ⟨rfl, fun x hx => hold x _ hx nofun, fun x target hx => hold x _ hx nofun⟩
    exact hsteers.read_eq_ok hq (look_put_of_ne_nil (ne_nil_of_seat? hq) _ _)

end ConnectionSecurity.FileSystem
