import ConnectionSecurity.Proofs.Waiver.Shelf

/-!
# Editors of one file

An editor has a store of its own on the file. To save a decision means to make it in memory and to
persist the row of the connection, both flags of it. So what a run of editors leaves in the file is
found by two equations for each of their steps, one for the file and one for what each store keeps
(`Editing.board`), and the table in the file follows them (`shows_of_edits`).

A save brings back the other flag as the store remembers it. It takes nothing back if the store is
up to date on the row: it was opened, or it read the row again, or it saved it, and no other store
saved the row since. While every save that could take a flag back is made by such a store, the flag
in the file is the one that was set last (`isWaived_of_inTurn`). One save by another store is enough
to lose a decision (`decision_is_lost`).
-/

namespace ConnectionSecurity.Waiver

/-- What an editor does, as a whole. Stores are numbered in the order they were opened. -/
inductive Editing where
  | openFile
  /-- Read the row of a connection again. -/
  | refresh (store : Nat) (uuid : String)
  /-- Decide about a check, and write the row of the connection. -/
  | save (store : Nat) (uuid : String) (phase : Phase) (waived : Bool)

namespace Editing

/-! ## What a run of editors comes to

A run is listed with the latest step first. -/

/-- How many stores were opened. -/
def opened : List Editing → Nat
  | [] => 0
  | openFile :: past => opened past + 1
  | refresh .. :: past => opened past
  | save .. :: past => opened past

/-- The rows in the file, and those that each store keeps in memory. -/
structure Board where
  file : String → Row
  kept : Nat → String → Row

/-- A store keeps the row of a connection. -/
def Board.keep (b : Board) (store : Nat) (uuid : String) (r : Row) : Board :=
  { b with kept := fun k v => if k = store ∧ v = uuid then r else b.kept k v }

/-- The rows after a run that began with a table in the file. -/
def board (t : Table) : List Editing → Board
  | [] => ⟨t.row, fun _ _ => {}⟩
  | openFile :: past =>
    let b := board t past
    { b with kept := fun k => if k = opened past then b.file else b.kept k }
  | refresh store uuid :: past =>
    let b := board t past
    b.keep store uuid (b.file uuid)
  | save store uuid phase waived :: past =>
    let b := board t past
    let r := (b.kept store uuid).set phase waived
    { b.keep store uuid r with file := fun v => if v = uuid then r else b.file v }

/-- The value that was set last, if any was. -/
def lastSet? (uuid : String) (phase : Phase) : List Editing → Option Bool
  | [] => none
  | save _ u phase' waived :: past =>
    if u = uuid ∧ phase' = phase then some waived else lastSet? uuid phase past
  | openFile :: past => lastSet? uuid phase past
  | refresh .. :: past => lastSet? uuid phase past

/-- No other store saved the row of a connection since this one was opened, or read or saved the
row. -/
def UpToDate (store : Nat) (uuid : String) : List Editing → Prop
  | [] => False
  | openFile :: past => store = opened past ∨ UpToDate store uuid past
  | refresh k u :: past => (k = store ∧ u = uuid) ∨ UpToDate store uuid past
  | save k u _ _ :: past => if u = uuid then k = store else UpToDate store uuid past

/-- Every save of the row that sets the other flag is made by a store that is up to date. -/
def InTurn (uuid : String) (phase : Phase) : List Editing → Prop
  | [] => True
  | save k u phase' _ :: past =>
    (u = uuid → phase' ≠ phase → UpToDate k uuid past) ∧ InTurn uuid phase past
  | openFile :: past => InTurn uuid phase past
  | refresh .. :: past => InTurn uuid phase past

variable {t : Table} {past : List Editing} {k : Nat} {u uuid : String} {phase : Phase}

/-- A store that is up to date keeps the row that is in the file. -/
theorem kept_of_upToDate (h : UpToDate k u past) :
    (board t past).kept k u = (board t past).file u := by
  induction past with
  | nil => exact h.elim
  | cons e past ih =>
      cases e with
      | openFile =>
          simp only [board]
          by_cases hnew : k = opened past
          · rw [if_pos hnew]
          · rw [if_neg hnew]
            exact ih (h.resolve_left hnew)
      | refresh store v =>
          simp only [board, Board.keep]
          by_cases hread : k = store ∧ u = v
          · rw [if_pos hread, hread.2]
          · rw [if_neg hread]
            apply ih
            apply h.resolve_left
            rintro ⟨rfl, rfl⟩
            exact hread ⟨rfl, rfl⟩
      | save store v phase waived =>
          simp only [board, Board.keep]
          rw [UpToDate] at h
          split at h
          next hv =>
            subst hv
            rw [if_pos ⟨h.symm, rfl⟩, if_pos rfl]
          next hv =>
            rw [if_neg fun hboth => hv hboth.2.symm, if_neg fun heq => hv heq.symm]
            exact ih h

/-- While saves are made in turn, the flag in the file is the one that was set last. -/
theorem get_file_of_inTurn (h : InTurn uuid phase past) :
    ((board t past).file uuid).get phase =
      (lastSet? uuid phase past).getD (t.isWaived uuid phase) := by
  induction past with
  | nil => rfl
  | cons e past ih =>
      cases e with
      | openFile => exact ih h
      | refresh store v => exact ih h
      | save store v phase' waived =>
          obtain ⟨hother, hpast⟩ := h
          simp only [board, lastSet?]
          by_cases hv : v = uuid
          · subst hv
            rw [if_pos rfl, Row.get_set]
            by_cases hphase : phase' = phase
            · rw [if_pos hphase.symm, if_pos ⟨rfl, hphase⟩]
              rfl
            · rw [if_neg fun heq => hphase heq.symm, if_neg fun hboth => hphase hboth.2,
                kept_of_upToDate (hother rfl hphase)]
              exact ih hpast
          · rw [if_neg fun heq => hv heq.symm, if_neg fun hboth => hv hboth.1]
            exact ih hpast

end Editing

namespace Shelf

open Editing

variable {path : Path} {fs : FileSystem} {t : Table} {s after : Shelf} {past : List Editing}
  {h k n : Nat} {store : Store} {u uuid : String} {phase : Phase} {waived : Bool} {b : Board}

/-! ## The run on the shelf -/

/-- Save a decision: make it, and persist the row. -/
def save (path : Path) (s : Shelf) (k : Nat) (uuid : String) (phase : Phase) (waived : Bool) :
    Except StoreError (Option Row) × Shelf :=
  (s.act path (.use k (.decide uuid phase waived))).2.act path (.use k (.persist uuid))

/-- To decide puts a row in memory. -/
theorem act_decide (hstore : s.pool.store? k = some store) (uuid : String) (phase : Phase)
    (waived : Bool) : (s.act path (.use k (.decide uuid phase waived))).2 =
      s.putRow k store uuid ((store.table.row uuid).set phase waived) := by
  rw [act_use hstore]
  rfl

/-- What a run of editors makes of a file system, where every step is completed: it does not fail, and
the renaming in a save does what it is for. -/
inductive Edits (path : Path) (fs : FileSystem) : List Editing → Shelf → Prop where
  | start : Edits path fs [] { fs }
  | openFile {past : List Editing} {s after : Shelf} (h : Edits path fs past s)
      (hact : s.act path .openFile = (.ok none, after)) : Edits path fs (.openFile :: past) after
  | refresh {past : List Editing} {s after : Shelf} {k : Nat} {uuid : String} {r : Row}
      (h : Edits path fs past s) (hk : k < opened past)
      (hact : s.act path (.use k (.refresh uuid)) = (.ok (some r), after)) :
      Edits path fs (.refresh k uuid :: past) after
  | save {past : List Editing} {s after : Shelf} {k : Nat} {uuid : String} {phase : Phase}
      {waived : Bool} (h : Edits path fs past s) (hk : k < opened past)
      (hact : s.save path k uuid phase waived = (.ok none, after)) (hreplaces : Replaces s.fs path) :
      Edits path fs (.save k uuid phase waived :: past) after

/-- The shelf has the rows of a board. -/
structure Shows (path : Path) (s : Shelf) (n : Nat) (b : Board) : Prop where
  behind : s.pool.Behind path
  size : s.pool.handles.size = n
  own : s.pool.Own
  file : ∃ t, s.file path = .ok t ∧ ∀ v, t.row v = b.file v
  kept : ∀ k v, k < n → (s.row? k v).getD {} = b.kept k v

theorem shows_start (hread : readTable fs path = .ok t) :
    Shows path { fs } 0 (board t []) where
  behind := ⟨nofun, nofun⟩
  size := rfl
  own := nofun
  file := ⟨t, hread, fun _ => rfl⟩
  kept := nofun

/-- A store that is opened keeps the rows of the file. -/
theorem Shows.openFile (hs : Shows path s n b) (hact : s.act path .openFile = (.ok none, after)) :
    Shows path after (n + 1) { b with kept := fun k => if k = n then b.file else b.kept k } := by
  obtain ⟨t, ht, hrows⟩ := hs.file
  have heffect := effect_act hs.behind .openFile
  rw [hact] at heffect
  cases heffect with
  | opened hfile =>
      cases hfile.symm.trans ht
      refine ⟨hs.behind.add rfl, ?_, hs.behind.own_add hs.own _, ⟨t, ht, hrows⟩, ?_⟩
      · simp [Pool.add, hs.size]
      · intro k v hk
        show _ = (if k = n then b.file else b.kept k) v
        by_cases hnew : k = n
        · subst hnew
          rw [if_pos rfl, row?, ← hs.size, Pool.store?_add_size, Option.bind_some]
          exact hrows v
        · have hold : k < s.pool.handles.size := by
            have := hs.size
            omega
          rw [if_neg hnew, row?, Pool.store?_add_of_lt hs.behind hold]
          exact hs.kept k v (hs.size ▸ hold)

/-- A row that is kept in memory is kept by one store. -/
theorem Shows.putRow (hs : Shows path s n b) (hstore : s.pool.store? k = some store)
    (hk : k < n) (uuid : String) (r : Row) :
    Shows path (s.putRow k store uuid r) n (b.keep k uuid r) := by
  have hpath := hs.behind.path_eq hstore
  refine ⟨hs.behind.replace hstore hpath, hs.size, hs.own, hs.file, ?_⟩
  intro h v hh
  rw [row?_putRow hstore]
  simp only [Board.keep]
  by_cases hrow : h = k ∧ v = uuid
  · obtain ⟨rfl, rfl⟩ := hrow
    have hself : s.pool.Same h h := rfl
    rw [if_pos ⟨hself, rfl⟩, if_pos ⟨rfl, rfl⟩]
    rfl
  · rw [if_neg hrow, if_neg fun hboth => hrow ⟨hs.own k h (hs.size ▸ hk) hboth.1, hboth.2⟩]
    exact hs.kept h v hh

theorem Shows.refresh {r : Row} (hs : Shows path s n b) (hk : k < n)
    (hact : s.act path (.use k (.refresh uuid)) = (.ok (some r), after)) :
    Shows path after n (b.keep k uuid (b.file uuid)) := by
  obtain ⟨t, ht, hrows⟩ := hs.file
  have heffect := effect_act hs.behind (.use k (.refresh uuid))
  rw [hact] at heffect
  cases heffect with
  | refreshed hstore hfile _ =>
      cases hfile.symm.trans ht
      rw [← hrows uuid]
      exact hs.putRow hstore hk uuid _

theorem Shows.save (hs : Shows path s n b) (hk : k < n)
    (hact : s.save path k uuid phase waived = (.ok none, after)) (hreplaces : Replaces s.fs path) :
    Shows path after n
      { b.keep k uuid ((b.kept k uuid).set phase waived) with
        file := fun v => if v = uuid then (b.kept k uuid).set phase waived else b.file v } := by
  obtain ⟨store, hstore⟩ := hs.behind.exists_store (hs.size ▸ hk)
  have hrow : store.table.row uuid = b.kept k uuid := by
    rw [← hs.kept k uuid hk, row?, hstore]
    rfl
  -- The decision changes the row in memory, and that row is persisted.
  have hdecided : (s.act path (.use k (.decide uuid phase waived))).2 =
      s.putRow k store uuid ((b.kept k uuid).set phase waived) := by
    rw [act_decide hstore, hrow]
  have hmemory := hs.putRow hstore hk uuid ((b.kept k uuid).set phase waived)
  have hput : (s.putRow k store uuid ((b.kept k uuid).set phase waived)).row? k uuid =
      some ((b.kept k uuid).set phase waived) := by
    have hself : s.pool.Same k k := rfl
    rw [row?_putRow hstore, if_pos ⟨hself, rfl⟩]
  rw [Shelf.save, hdecided] at hact
  obtain ⟨hpool, t, ht, ht'⟩ := persist_of_row?_eq_some hmemory.behind hput hact hreplaces
  obtain ⟨t', ht'', hrows⟩ := hmemory.file
  cases ht.symm.trans ht''
  refine ⟨hpool ▸ hmemory.behind, hpool ▸ hmemory.size, hpool ▸ hmemory.own, ⟨_, ht', ?_⟩, ?_⟩
  · intro v
    rw [Table.row_put, hrows v]
    rfl
  · intro h v hh
    rw [row?, hpool]
    exact hmemory.kept h v hh

/-- **The shelf follows the board** in every run. -/
theorem shows_of_edits (h : Edits path fs past s) (hread : readTable fs path = .ok t) :
    Shows path s (opened past) (board t past) := by
  induction h with
  | start => exact shows_start hread
  | openFile h hact ih => exact ih.openFile hact
  | refresh h hk hact ih => exact ih.refresh hk hact
  | save h hk hact hreplaces ih => exact ih.save hk hact hreplaces

/-- **No update is lost while saves are made in turn.** After a run of editors the file holds the
rows of the board. The flag of a connection there is the one that was set last, as long as every
save that set the other flag was made by a store that was up to date on the row. -/
theorem isWaived_of_inTurn (h : Edits path fs past s) (hread : readTable fs path = .ok t) :
    ∃ t', s.file path = .ok t' ∧ (∀ uuid, t'.row uuid = (board t past).file uuid) ∧
      ∀ uuid phase, InTurn uuid phase past →
        t'.isWaived uuid phase = (lastSet? uuid phase past).getD (t.isWaived uuid phase) := by
  obtain ⟨t', ht', hrows⟩ := (shows_of_edits h hread).file
  refine ⟨t', ht', hrows, ?_⟩
  intro uuid phase hturn
  rw [Table.isWaived, hrows uuid]
  exact get_file_of_inTurn hturn

/-! ## Commands

A command opens a store of its own, saves one decision, and is done. -/

/-- The run of the commands that make these decisions, the latest first. -/
def commands : List (String × Phase × Bool) → List Editing
  | [] => []
  | (uuid, phase, waived) :: earlier =>
    .save earlier.length uuid phase waived :: .openFile :: commands earlier

theorem opened_commands (decisions : List (String × Phase × Bool)) :
    opened (commands decisions) = decisions.length := by
  induction decisions with
  | nil => rfl
  | cons d earlier ih =>
      show opened (commands earlier) + 1 = earlier.length + 1
      rw [ih]

/-- A store that was just opened is up to date. -/
theorem inTurn_commands (decisions : List (String × Phase × Bool)) (uuid : String)
    (phase : Phase) : InTurn uuid phase (commands decisions) := by
  induction decisions with
  | nil => trivial
  | cons d earlier ih =>
      refine ⟨?_, ih⟩
      intro _ _
      exact .inl (opened_commands earlier).symm

/-- **Commands lose no update.** Each flag in the file is the one that was decided last. -/
theorem isWaived_of_commands {decisions : List (String × Phase × Bool)}
    (h : Edits path fs (commands decisions) s) (hread : readTable fs path = .ok t) :
    ∃ t', s.file path = .ok t' ∧ ∀ uuid phase, t'.isWaived uuid phase =
      (lastSet? uuid phase (commands decisions)).getD (t.isWaived uuid phase) := by
  obtain ⟨t', ht', hrows⟩ := (shows_of_edits h hread).file
  refine ⟨t', ht', ?_⟩
  intro uuid phase
  rw [Table.isWaived, hrows uuid]
  exact get_file_of_inTurn (inTurn_commands decisions uuid phase)

/-! ## Runs that can be completed -/

open FileSystem

theorem exists_save (hs : Shows "/t" s n b) (hbare : Bare s.fs) (hk : k < n) (uuid : String)
    (phase : Phase) (waived : Bool) :
    ∃ after, s.save "/t" k uuid phase waived = (.ok none, after) ∧ Bare after.fs := by
  obtain ⟨t, ht, -⟩ := hs.file
  obtain ⟨store, hstore⟩ := hs.behind.exists_store (hs.size ▸ hk)
  have hself : s.pool.Same k k := rfl
  obtain ⟨fs', hwrite, hbare'⟩ :=
    hbare.writeTable (t.put uuid ((store.table.row uuid).set phase waived))
  -- The store with the decision in it, and what persisting makes of the files.
  have hmemory : (s.putRow k store uuid ((store.table.row uuid).set phase waived)).pool.store? k =
      some (store.decide uuid phase waived) :=
    (Pool.store?_replace hstore _ k).trans (if_pos hself)
  have hrow : (store.decide uuid phase waived).table.row? uuid =
      some ((store.table.row uuid).set phase waived) :=
    (store.table.row?_put uuid uuid _).trans (if_pos rfl)
  have hpath : store.path = some "/t" := hs.behind.path_eq hstore
  have hread : readTable s.fs "/t" = .ok t := ht
  have hpersist : (store.decide uuid phase waived).persist
      (s.putRow k store uuid ((store.table.row uuid).set phase waived)).fs uuid = (.ok (), fs') := by
    show (store.decide uuid phase waived).persist s.fs uuid = _
    have hpath' : (store.decide uuid phase waived).path = some "/t" := hpath
    rw [Store.persist_eq hpath' hrow, hread]
    exact hwrite
  refine ⟨{ s.putRow k store uuid ((store.table.row uuid).set phase waived) with fs := fs' },
    ?_, hbare'⟩
  rw [Shelf.save, act_decide hstore, act_use hmemory]
  simp only [use, hpersist]

/-- Only stores that were opened are used. -/
def Possible : List Editing → Prop
  | [] => True
  | .openFile :: past => Possible past
  | .refresh k _ :: past => k < opened past ∧ Possible past
  | .save k _ _ _ :: past => k < opened past ∧ Possible past

/-- **Every run can be completed** where there is room for the two files. -/
theorem exists_edits (hfs : Bare fs) (hread : readTable fs "/t" = .ok t) (h : Possible past) :
    ∃ s, Edits "/t" fs past s ∧ Bare s.fs := by
  induction past with
  | nil => exact ⟨{ fs }, .start, hfs⟩
  | cons e past ih =>
      have hpast : Possible past := by
        cases e with
        | openFile => exact h
        | _ => exact h.2
      obtain ⟨s, hs, hbare⟩ := ih hpast
      have hshows := shows_of_edits hs hread
      obtain ⟨t', ht', -⟩ := hshows.file
      cases e with
      | openFile =>
          obtain ⟨after, hact, hsame, -⟩ := (keyed_of_behind hshows.behind).openFile t' ht'
          exact ⟨after, .openFile hs hact, hsame ▸ hbare⟩
      | refresh k uuid =>
          obtain ⟨after, hact, hsame, -⟩ :=
            (keyed_of_behind hshows.behind).refresh k uuid t' (hshows.size ▸ h.1) ht'
          exact ⟨after, .refresh hs h.1 hact, hsame ▸ hbare⟩
      | save k uuid phase waived =>
          obtain ⟨after, hact, hbare'⟩ := exists_save hshows hbare h.1 uuid phase waived
          exact ⟨after, .save hs h.1 hact hbare.replaces, hbare'⟩

theorem readTable_blank : readTable (.blank []) "/t" = .ok {} :=
  readTable_of_not_pathExists (by cbv)

/-! ### Two editors of one connection -/

/-- The second editor reads the row again before it saves. -/
def inTurn : List Editing :=
  [.save 1 "u" .inner true, .refresh 1 "u", .save 0 "u" .outer true, .openFile, .openFile]

theorem isWaived_of_inTurn_both : ∃ s t, Edits "/t" (.blank []) inTurn s ∧
    (∀ phase, InTurn "u" phase inTurn) ∧ s.file "/t" = .ok t ∧
    t.isWaived "u" .outer = true ∧ t.isWaived "u" .inner = true := by
  have hpossible : Possible inTurn := by simp [inTurn, Possible, opened]
  have hturn : ∀ phase, InTurn "u" phase inTurn := by
    intro phase
    simp [inTurn, InTurn, UpToDate, opened]
  obtain ⟨s, hs, -⟩ := exists_edits bare_blank readTable_blank hpossible
  obtain ⟨t, ht, -, hwaived⟩ := isWaived_of_inTurn hs readTable_blank
  exact ⟨s, t, hs, hturn, ht, hwaived "u" .outer (hturn _), hwaived "u" .inner (hturn _)⟩

/-- The second editor saves the row as it was when its store was opened. -/
def stale : List Editing :=
  [.save 1 "u" .inner true, .save 0 "u" .outer true, .openFile, .openFile]

/-- The decision of the first editor is lost, although nobody set the flag again. -/
theorem decision_is_lost : ∃ s t, Edits "/t" (.blank []) stale s ∧ s.file "/t" = .ok t ∧
    lastSet? "u" .outer stale = some true ∧ t.isWaived "u" .outer = false := by
  have hpossible : Possible stale := by simp [stale, Possible, opened]
  obtain ⟨s, hs, -⟩ := exists_edits bare_blank readTable_blank hpossible
  obtain ⟨t, ht, hrows⟩ := (shows_of_edits hs readTable_blank).file
  refine ⟨s, t, hs, ht, rfl, ?_⟩
  rw [Table.isWaived, hrows "u"]
  rfl

end Shelf

end ConnectionSecurity.Waiver
