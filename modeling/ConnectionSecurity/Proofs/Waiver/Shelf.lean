import Mathlib
import ConnectionSecurity.Proofs.Waiver.Pool
import ConnectionSecurity.Proofs.Waiver.Rows

/-!
# Stores behind one file, as a table with keys

Any number of stores may have the same file behind them, and any number of handles may name the same
store. A shelf is what there is at one time: the handles, the stores and the files. It changes by
what is done through a handle, and by what others do to the files.

Whatever has happened, the shelf is a table with keys, one copy of it for each store and one in the
file (`keyed_run`): a decision changes one flag, a row goes to the file or comes from it alone, and
what is refused changes no row. The invariant that carries this over a run is `Pool.Behind`: each
handle names a store, and each store has the file behind it.
-/

namespace ConnectionSecurity.Waiver

/-- What is done through a handle. -/
inductive Use where
  | copy
  | decide (uuid : String) (phase : Phase) (waived : Bool)
  | refresh (uuid : String)
  | persist (uuid : String)

inductive Action where
  /-- Open a store on the file. -/
  | openFile
  | use (handle : Nat) (u : Use)
  /-- Others change the files, in whatever way. -/
  | change (fs : FileSystem)

/-- Stores behind one file, and the files. -/
structure Shelf where
  pool : Pool := {}
  fs : FileSystem

namespace Shelf

/-- Use a handle of a store. Only a refresh answers with a row. -/
def use (s : Shelf) (handle : Nat) (store : Store) : Use → Except StoreError (Option Row) × Shelf
  | .copy => (.ok none, { s with pool := s.pool.copy handle })
  | .decide uuid phase waived =>
    (.ok none, { s with pool := s.pool.replace handle (store.decide uuid phase waived) })
  | .refresh uuid =>
    match store.refresh s.fs uuid with
    | .error e => (.error e, s)
    | .ok (r, store) => (.ok (some r), { s with pool := s.pool.replace handle store })
  | .persist uuid =>
    match store.persist s.fs uuid with
    | (.error e, fs) => (.error e, { s with fs })
    | (.ok (), fs) => (.ok none, { s with fs })

/-- Do something with the stores behind the file. A handle that names no store does nothing. -/
def act (path : Path) (s : Shelf) : Action → Except StoreError (Option Row) × Shelf
  | .openFile =>
    match Store.openFile s.fs path with
    | .error e => (.error e, s)
    | .ok store => (.ok none, { s with pool := s.pool.add store })
  | .use handle u =>
    match s.pool.store? handle with
    | none => (.ok none, s)
    | some store => s.use handle store u
  | .change fs => (.ok none, { s with fs })

def run (path : Path) (s : Shelf) (actions : List Action) : Shelf :=
  actions.foldl (fun s a => (s.act path a).2) s

/-! ## What is seen -/

/-- The row in memory, seen through a handle. -/
def row? (s : Shelf) (handle : Nat) (uuid : String) : Option Row :=
  (s.pool.store? handle).bind (·.table.row? uuid)

/-- Whether a check is waived in memory, seen through a handle. -/
def isWaived (s : Shelf) (handle : Nat) (uuid : String) (phase : Phase) : Bool :=
  ((s.row? handle uuid).getD {}).get phase

/-- The rows in the file. -/
def file (path : Path) (s : Shelf) : Except StoreError Table := readTable s.fs path

/-- **A table with keys**, in memory once for each store and in the file. -/
structure Keyed (path : Path) (s : Shelf) : Prop where
  /-- A handle and its copy see the same rows ever after. -/
  copy : ∀ h later uuid, h < s.pool.handles.size →
    ((s.act path (.use h .copy)).2.run path later).row? s.pool.handles.size uuid =
      ((s.act path (.use h .copy)).2.run path later).row? h uuid
  /-- A decision changes one flag of one row of one store, and no file. -/
  decide : ∀ h uuid phase waived, h < s.pool.handles.size →
    ∀ after, (s.act path (.use h (.decide uuid phase waived))).2 = after →
      after.fs = s.fs ∧
      (∀ k v, ¬(s.pool.Same k h ∧ v = uuid) → after.row? k v = s.row? k v) ∧
      ∀ k v phase', after.isWaived k v phase' =
        if s.pool.Same k h ∧ v = uuid ∧ phase' = phase then waived else s.isWaived k v phase'
  /-- A row that is persisted joins the rows of the file, where renaming does what it is for. -/
  persist : ∀ h uuid r after, s.row? h uuid = some r →
    s.act path (.use h (.persist uuid)) = (.ok none, after) → Replaces s.fs path →
      after.pool = s.pool ∧ ∃ t t', s.file path = .ok t ∧ after.file path = .ok t' ∧
        ∀ v, t'.row? v = if v = uuid then some r else t.row? v
  /-- Without a row there is nothing to persist. -/
  persist_nothing : ∀ h uuid, s.row? h uuid = none →
    s.act path (.use h (.persist uuid)) = (.ok none, s)
  /-- A row that is refreshed is the one in the file, where a missing row waives nothing. -/
  refresh : ∀ h uuid t, h < s.pool.handles.size → s.file path = .ok t →
    ∃ after, s.act path (.use h (.refresh uuid)) = (.ok (some (t.row uuid)), after) ∧
      after.fs = s.fs ∧
      ∀ k v, after.row? k v =
        if s.pool.Same k h ∧ v = uuid then some (t.row uuid) else s.row? k v
  /-- A new store holds the rows of the file. -/
  openFile : ∀ t, s.file path = .ok t →
    ∃ after, s.act path .openFile = (.ok none, after) ∧ after.fs = s.fs ∧
      (∀ v, after.row? s.pool.handles.size v = t.row? v) ∧
      ∀ k v, k < s.pool.handles.size → after.row? k v = s.row? k v
  /-- What is refused leaves the rows in memory as they are. So it does those in the file, unless
  the directory of the file had to be made and others came to light; only persisting makes it, and
  a file that is there keeps its rows. -/
  refused : ∀ a e after, s.act path a = (.error e, after) →
    after.pool = s.pool ∧
    (readTable (ground s.fs path) path = s.file path → after.file path = s.file path) ∧
    (s.fs.pathExists path = true → after.file path = s.file path) ∧
    ((∀ h uuid, a ≠ .use h (.persist uuid)) → after = s)

/-! ## What an action can do -/

variable {path : Path} {s after : Shelf} {h k n : Nat} {store : Store} {uuid : String}

/-- Put a row into a store in memory. -/
def putRow (s : Shelf) (h : Nat) (store : Store) (uuid : String) (r : Row) : Shelf :=
  { s with pool := s.pool.replace h { store with table := store.table.put uuid r } }

/-- The ways in which an action can go. -/
inductive Effect (path : Path) (s : Shelf) :
    Action → Except StoreError (Option Row) × Shelf → Prop where
  /-- No store has this handle. -/
  | nothing {h : Nat} (u : Use) (hs : s.pool.store? h = none) :
      Effect path s (.use h u) (.ok none, s)
  /-- The file cannot be read. -/
  | unread {a : Action} {e : StoreError} (hfile : s.file path = .error e)
      (ha : ∀ h uuid, a ≠ .use h (.persist uuid)) : Effect path s a (.error e, s)
  | opened {t : Table} (hfile : s.file path = .ok t) :
      Effect path s .openFile
        (.ok none, { s with pool := s.pool.add { table := t, path := some path } })
  | copied {h : Nat} {store : Store} (hs : s.pool.store? h = some store) :
      Effect path s (.use h .copy) (.ok none, { s with pool := s.pool.copy h })
  | decided {h : Nat} {store : Store} (hs : s.pool.store? h = some store) (uuid : String)
      (phase : Phase) (waived : Bool) : Effect path s (.use h (.decide uuid phase waived))
        (.ok none, s.putRow h store uuid ((store.table.row uuid).set phase waived))
  | refreshed {h : Nat} {store : Store} {t : Table} (hs : s.pool.store? h = some store)
      (hfile : s.file path = .ok t) (uuid : String) : Effect path s (.use h (.refresh uuid))
        (.ok (some (t.row uuid)), s.putRow h store uuid (t.row uuid))
  | persisted {h : Nat} {store : Store} {uuid : String} {fs : FileSystem}
      (hs : s.pool.store? h = some store) (hpersist : store.persist s.fs uuid = (.ok (), fs)) :
      Effect path s (.use h (.persist uuid)) (.ok none, { s with fs := fs })
  | unwritten {h : Nat} {store : Store} {uuid : String} {e : StoreError} {fs : FileSystem}
      (hs : s.pool.store? h = some store) (hpersist : store.persist s.fs uuid = (.error e, fs)) :
      Effect path s (.use h (.persist uuid)) (.error e, { s with fs := fs })
  | changed (fs : FileSystem) : Effect path s (.change fs) (.ok none, { s with fs := fs })

theorem act_use (hs : s.pool.store? h = some store) (u : Use) :
    s.act path (.use h u) = s.use h store u := by
  simp only [act, hs]

/-- **What an action can do**, while every store has the file behind it. -/
theorem effect_act (hp : s.pool.Behind path) (a : Action) : Effect path s a (s.act path a) := by
  cases a with
  | openFile =>
      simp only [act, Store.openFile_eq]
      cases hfile : readTable s.fs path with
      | error e => exact .unread hfile nofun
      | ok t => exact .opened hfile
  | change fs => exact .changed fs
  | use h u =>
      cases hs : s.pool.store? h with
      | none =>
          simp only [act, hs]
          exact .nothing u hs
      | some store =>
          rw [act_use hs]
          cases u with
          | copy => exact .copied hs
          | decide uuid phase waived => exact .decided hs uuid phase waived
          | refresh uuid =>
              simp only [use, Store.refresh_eq (hp.path_eq hs)]
              cases hfile : readTable s.fs path with
              | error e => exact .unread hfile nofun
              | ok t => exact .refreshed hs hfile uuid
          | persist uuid =>
              simp only [use]
              cases hpersist : store.persist s.fs uuid with
              | mk result fs =>
                  cases result with
                  | error e => exact .unwritten hs hpersist
                  | ok => exact .persisted hs hpersist

/-! ## The invariant -/

/-- Whatever is done, each handle names a store with the file behind it. -/
theorem behind_act (hp : s.pool.Behind path) (a : Action) : (s.act path a).2.pool.Behind path := by
  generalize hacted : s.act path a = acted
  have heffect := effect_act hp a
  rw [hacted] at heffect
  cases heffect with
  | opened hfile => exact hp.add rfl
  | copied hs => exact hp.copy hs
  | decided hs uuid phase waived =>
      have hpath := hp.path_eq hs
      exact hp.replace hs hpath
  | refreshed hs hfile uuid =>
      have hpath := hp.path_eq hs
      exact hp.replace hs hpath
  | _ => exact hp

theorem behind_run (hp : s.pool.Behind path) (actions : List Action) :
    (s.run path actions).pool.Behind path := by
  induction actions generalizing s with
  | nil => exact hp
  | cons a actions ih => exact ih (behind_act hp a)

/-- A handle goes on naming the same store. -/
theorem handles_act (hp : s.pool.Behind path) (hn : s.pool.handles[k]? = some n) (a : Action) :
    (s.act path a).2.pool.handles[k]? = some n := by
  have hlt : k < s.pool.handles.size := (Array.getElem?_eq_some_iff.1 hn).1
  have hpush (m : Nat) : (s.pool.handles.push m)[k]? = some n := by
    rw [Array.getElem?_push, if_neg (Nat.ne_of_lt hlt), hn]
  generalize hacted : s.act path a = acted
  have heffect := effect_act hp a
  rw [hacted] at heffect
  cases heffect with
  | opened hfile => exact hpush _
  | copied hs => exact hpush _
  | _ => exact hn

theorem handles_run (hp : s.pool.Behind path) (hn : s.pool.handles[k]? = some n)
    (actions : List Action) : (s.run path actions).pool.handles[k]? = some n := by
  induction actions generalizing s with
  | nil => exact hn
  | cons a actions ih => exact ih (behind_act hp a) (handles_act hp hn a)

/-! ## The clauses -/

theorem row?_eq_of_same (hs : s.pool.store? h = some store) (hsame : s.pool.Same k h)
    (uuid : String) : s.row? k uuid = store.table.row? uuid := by
  rw [row?, hsame.store?_eq, hs, Option.bind_some]

/-- A handle and its copy see the same rows ever after. -/
theorem row?_run_copy (hp : s.pool.Behind path) (hh : h < s.pool.handles.size)
    (later : List Action) (uuid : String) :
    ((s.act path (.use h .copy)).2.run path later).row? s.pool.handles.size uuid =
      ((s.act path (.use h .copy)).2.run path later).row? h uuid := by
  obtain ⟨store, hs⟩ := hp.exists_store hh
  obtain ⟨n, hn, -⟩ := Pool.copy_eq hs
  have hcopied : (s.act path (.use h .copy)).2.pool = s.pool.copy h := by
    rw [act_use hs]
    rfl
  have hp' : (s.act path (.use h .copy)).2.pool.Behind path := behind_act hp _
  have hold : (s.act path (.use h .copy)).2.pool.handles[h]? = some n := handles_act hp hn _
  have hnew : (s.act path (.use h .copy)).2.pool.handles[s.pool.handles.size]? = some n := by
    rw [← hold, hcopied]
    exact Pool.same_copy hs
  have hsame : ((s.act path (.use h .copy)).2.run path later).pool.Same s.pool.handles.size h :=
    (handles_run hp' hnew later).trans (handles_run hp' hold later).symm
  rw [row?, row?, hsame.store?_eq]

/-- A row in memory is changed for all handles of its store, and for no others. -/
theorem row?_putRow (hs : s.pool.store? h = some store) (uuid : String) (r : Row) (k : Nat)
    (v : String) : (s.putRow h store uuid r).row? k v =
      if s.pool.Same k h ∧ v = uuid then some r else s.row? k v := by
  rw [putRow, row?, Pool.store?_replace hs]
  by_cases hsame : s.pool.Same k h
  · rw [if_pos hsame, Option.bind_some, Table.row?_put, row?_eq_of_same hs hsame]
    by_cases hv : v = uuid
    · rw [if_pos hv, if_pos ⟨hsame, hv⟩]
    · rw [if_neg hv, if_neg fun hboth => hv hboth.2]
  · rw [if_neg hsame, if_neg fun hboth => hsame hboth.1, row?]

/-- A decision changes one flag. -/
theorem isWaived_putRow_set (hs : s.pool.store? h = some store) (uuid : String) (phase : Phase)
    (waived : Bool) (k : Nat) (v : String) (phase' : Phase) :
    (s.putRow h store uuid ((store.table.row uuid).set phase waived)).isWaived k v phase' =
      if s.pool.Same k h ∧ v = uuid ∧ phase' = phase then waived else s.isWaived k v phase' := by
  unfold isWaived
  rw [row?_putRow hs]
  by_cases hrow : s.pool.Same k h ∧ v = uuid
  · obtain ⟨hsame, rfl⟩ := hrow
    simp [hsame, row?_eq_of_same hs hsame, Table.row]
  · rw [if_neg hrow, if_neg fun hall => hrow ⟨hall.1, hall.2.1⟩]

theorem persist_of_row?_eq_some (hp : s.pool.Behind path) {r : Row}
    (hrow : s.row? h uuid = some r)
    (hact : s.act path (.use h (.persist uuid)) = (.ok none, after))
    (hreplaces : Replaces s.fs path) : after.pool = s.pool ∧
      ∃ t, s.file path = .ok t ∧ after.file path = .ok (t.put uuid r) := by
  obtain ⟨store, hs, hrow⟩ := Option.bind_eq_some_iff.1 hrow
  have heffect := effect_act hp (.use h (.persist uuid))
  rw [hact] at heffect
  cases heffect with
  | nothing _ hnone => cases hs.symm.trans hnone
  | persisted hs' hpersist =>
      obtain rfl := Option.some.inj (hs.symm.trans hs')
      exact ⟨rfl, Store.readTable_persist (hp.path_eq hs) hrow hpersist hreplaces⟩

theorem act_persist_of_row?_eq_none (hrow : s.row? h uuid = none) :
    s.act path (.use h (.persist uuid)) = (.ok none, s) := by
  cases hs : s.pool.store? h with
  | none => simp only [act, hs]
  | some store =>
      rw [row?, hs, Option.bind_some] at hrow
      rw [act_use hs]
      simp only [use, Store.persist_of_row?_eq_none hrow]

theorem act_refused (hp : s.pool.Behind path) {a : Action} {e : StoreError}
    (hact : s.act path a = (.error e, after)) : after.pool = s.pool ∧
      (readTable (ground s.fs path) path = s.file path → after.file path = s.file path) ∧
      (s.fs.pathExists path = true → after.file path = s.file path) ∧
      ((∀ h uuid, a ≠ .use h (.persist uuid)) → after = s) := by
  have heffect := effect_act hp a
  rw [hact] at heffect
  cases heffect with
  | unread hfile ha => exact ⟨rfl, fun _ => rfl, fun _ => rfl, fun _ => rfl⟩
  | unwritten hs hpersist =>
      have hkept := Store.readTable_of_not_persisted (hp.path_eq hs) hpersist
      exact ⟨rfl, hkept, fun hthere => hkept (readTable_ground hthere),
        fun ha => absurd rfl (ha _ _)⟩

/-- While each handle names a store with the file behind it, the shelf is a table with keys. -/
theorem keyed_of_behind (hp : s.pool.Behind path) : Keyed path s where
  copy h later uuid hh := row?_run_copy hp hh later uuid
  decide h uuid phase waived hh := by
    obtain ⟨store, hs⟩ := hp.exists_store hh
    rintro after rfl
    rw [act_use hs]
    refine ⟨rfl, fun k v hother => ?_, isWaived_putRow_set hs uuid phase waived⟩
    exact (row?_putRow hs uuid _ k v).trans (if_neg hother)
  persist h uuid r after hrow hact hreplaces := by
    obtain ⟨hpool, t, ht, ht'⟩ := persist_of_row?_eq_some hp hrow hact hreplaces
    exact ⟨hpool, t, t.put uuid r, ht, ht', fun v => t.row?_put uuid v r⟩
  persist_nothing h uuid hrow := act_persist_of_row?_eq_none hrow
  refresh h uuid t hh hfile := by
    obtain ⟨store, hs⟩ := hp.exists_store hh
    have hread : readTable s.fs path = .ok t := hfile
    have hact : s.act path (.use h (.refresh uuid)) =
        (.ok (some (t.row uuid)), s.putRow h store uuid (t.row uuid)) := by
      simp only [act_use hs, use, Store.refresh_eq (hp.path_eq hs), hread]
      rfl
    exact ⟨_, hact, rfl, row?_putRow hs uuid (t.row uuid)⟩
  openFile t hfile := by
    have hread : readTable s.fs path = .ok t := hfile
    have hact : s.act path .openFile =
        (.ok none, { s with pool := s.pool.add { table := t, path := some path } }) := by
      simp only [act, Store.openFile_eq, hread]
      rfl
    refine ⟨_, hact, rfl, fun v => ?_, fun k v hk => ?_⟩
    · simp [row?, Pool.store?_add_size]
    · simp [row?, Pool.store?_add_of_lt hp hk]
  refused a e after hact := act_refused hp hact

/-- **Stores behind one file are a table with keys**, whatever was done with them and to the files
before. -/
theorem keyed_run (path : Path) (fs : FileSystem) (actions : List Action) :
    Keyed path (run path { fs } actions) := by
  have hempty : ({ fs } : Shelf).pool.Behind path := ⟨nofun, nofun⟩
  exact keyed_of_behind (behind_run hempty actions)

/-! ### A row that is found again, and one that comes to light -/

open FileSystem

/-- A row that is persisted to a file that is not there yet is found in it. -/
theorem keyed_run_first :
    let s := run "/t" { fs := .blank [] } [.openFile, .use 0 (.decide "u" .outer true)]
    ∃ after t, s.act "/t" (.use 0 (.persist "u")) = (.ok none, after) ∧
      after.file "/t" = .ok t ∧ t.row? "u" = some ⟨true, false⟩ := by
  intro s
  have hread : readTable (.blank []) "/t" = .ok {} := readTable_of_not_pathExists (by cbv)
  obtain ⟨fs', hwrite, -⟩ := bare_blank.writeTable (Table.put {} "u" ⟨true, false⟩)
  have hs : s = ⟨⟨#[⟨Table.decide {} "u" .outer true, some "/t"⟩], #[0]⟩, .blank []⟩ := by
    simp only [s, run, List.foldl_cons, List.foldl_nil, act, Store.openFile_eq, hread]
    rfl
  have hstore : s.pool.store? 0 = some ⟨Table.decide {} "u" .outer true, some "/t"⟩ := by
    rw [hs]
    rfl
  have hfs : s.fs = .blank [] := by rw [hs]
  have hpersist : Store.persist ⟨Table.decide {} "u" .outer true, some "/t"⟩ s.fs "u" =
      (.ok (), fs') := by
    rw [hfs, Store.persist_eq rfl rfl, hread]
    exact hwrite
  have hact : s.act "/t" (.use 0 (.persist "u")) = (.ok none, { s with fs := fs' }) := by
    rw [act_use hstore]
    simp only [use, hpersist]
  have hrow : s.row? 0 "u" = some ⟨true, false⟩ := by
    rw [row?, hstore]
    rfl
  have hkeyed : Keyed "/t" s := keyed_run "/t" _ _
  have hfsreplaces : Replaces s.fs "/t" := by
    rw [hfs]
    exact bare_blank.replaces
  have hjoined := hkeyed.persist 0 "u" _ _ hrow hact hfsreplaces
  obtain ⟨-, t, t', -, ht', hrows⟩ := hjoined
  exact ⟨_, t', hact, ht', (hrows "u").trans (if_pos rfl)⟩

/-- A table at the root, and a directory in place of its staging file. -/
def blocked (text : String) : FileSystem :=
  ((FileSystem.blank []).put ["t"] (.file (Bytes.ofText text))).put ["t.toml.tmp"] .directory

section
variable {fs : FileSystem} {mode : AtLink} {found : Found} {text : String}

theorem isName_a : IsName "a" := ⟨by decide, by decide, by decide⟩

/-- Up again behind a directory that is there. -/
theorem walks_up_again (ha : fs.look ["a"] = some .directory) {rest : List String}
    (hrest : isLast (".." :: rest) = false)
    (h : fs.Walks mode linkLimit [] rest found) :
    fs.Walks mode linkLimit [] ("" :: "a" :: ".." :: rest) found :=
  .idle (by decide) (.down isName_a ha (by simp [hrest]) (.up (by decide) (by decide) h))

/-- Nowhere behind one that is not. -/
theorem walk_missing (ha : fs.look ["a"] = none) {rest : List String} :
    fs.walk mode linkLimit [] ("" :: "a" :: ".." :: rest) = .error .notFound := by
  rw [walk, if_pos (by decide), isName_a.walk, ha]
  rfl

theorem look_blocked : (blocked text).look ["a"] = none := rfl

/-- The file system in which the directory was made. -/
theorem createDirectories_blocked : (blocked text).createDirectories "/a/.." =
    (.ok (), (blocked text).put ["a"] .directory) := by
  have hancestors : ancestors (Path.anchor "/a/..") (Path.body "/a/..") = ["/a/..", "/a"] := by
    decide
  have hup : Sendable "/a/.." := ⟨by decide, by decide, by decide⟩
  have hpieces : Path.pieces "/a/.." = ["", "a", ".."] := by decide
  have hmissing : (blocked text).locate .stay "/a/.." = .error .notFound := by
    rw [hup.locate_eq, hpieces]
    exact walk_missing look_blocked
  have ha : (blocked text).locate .stay "/a" = .ok (.vacant [] "a" false) := by
    refine locate_eq_ok.2 ⟨⟨by decide, by decide, by decide⟩, ?_⟩
    have hpieces : Path.pieces "/a" = ["", "a"] := by decide
    rw [hpieces]
    exact .idle (by decide) (.vacant isName_a look_blocked rfl)
  have hmade (mode : AtLink) : ((blocked text).put ["a"] .directory).locate mode "/a/.." =
      .ok (.node [] .directory) := by
    refine locate_eq_ok.2 ⟨hup, ?_⟩
    rw [hpieces]
    exact walks_up_again (look_put_self _ _ _ _) (by decide) (.nil _ _)
  have hdirectory : ((blocked text).put ["a"] .directory).isDirectory "/a/.." = true := by
    rw [isDirectory, nodeAt_eq_ok.2 ⟨[], hmade .follow⟩]
  simp [createDirectories, hancestors, createAlong, createDirectory, hmissing, ha, hmade,
    hdirectory, bind, Except.bind, pure, Except.pure, throw, throwThe, MonadExceptOf.throw]

theorem makeRoom_blocked : makeRoom (blocked text) "/a/../t" =
    (.ok (), (blocked text).put ["a"] .directory) := by
  have hparent : Path.parent? "/a/../t" = some "/a/.." := by decide
  rw [makeRoom, hparent]
  exact createDirectories_blocked

theorem writeTable_blocked (t : Table) : writeTable (blocked text) "/a/../t" t =
    (.error (.writeFailed "/a/../t" IoError.isADirectory.message),
      (blocked text).put ["a"] .directory) := by
  have hstaging : stagingPath "/a/../t" = "/a/../t.toml.tmp" := by decide
  have hpieces : Path.pieces "/a/../t.toml.tmp" = ["", "a", "..", "t.toml.tmp"] := by decide
  have hfound : ((blocked text).put ["a"] .directory).locate .follow "/a/../t.toml.tmp" =
      .ok (.node ["t.toml.tmp"] .directory) := by
    refine locate_eq_ok.2 ⟨⟨by decide, by decide, by decide⟩, ?_⟩
    rw [hpieces]
    exact walks_up_again (look_put_self _ _ _ _) (by decide)
      (.down isName_staging rfl rfl (.nil _ _))
  have hwrite (written : String) : ((blocked text).put ["a"] .directory).writeText
      (stagingPath "/a/../t") written = .error .isADirectory := by
    have hslash : asksForDirectory "/a/../t.toml.tmp" = false := by decide
    rw [hstaging, writeText, write, hslash, hfound]
    rfl
  rw [writeTable_eq, ground, makeRoom_blocked]
  simp only [hwrite]

theorem sendable_table : Sendable "/a/../t" := ⟨by decide, by decide, by decide⟩

theorem pieces_table : Path.pieces "/a/../t" = ["", "a", "..", "t"] := by decide

/-- At first the path leads nowhere. -/
theorem readTable_blocked : readTable (blocked text) "/a/../t" = .ok {} := by
  have hmissing : (blocked text).locate .follow "/a/../t" = .error .notFound := by
    rw [sendable_table.locate_eq, pieces_table]
    exact walk_missing look_blocked
  refine readTable_of_not_pathExists ?_
  rw [pathExists, nodeAt, hmissing]
  rfl

/-- Once the directory was made, it leads to the table. -/
theorem readTable_uncovered {t : Table} (ht : t.Ascending) :
    readTable ((blocked t.print).put ["a"] .directory) "/a/../t" = .ok t := by
  have hfound : ((blocked t.print).put ["a"] .directory).locate .follow "/a/../t" =
      .ok (.node ["t"] (.file (Bytes.ofText t.print))) := by
    refine locate_eq_ok.2 ⟨sendable_table, ?_⟩
    rw [pieces_table]
    exact walks_up_again (look_put_self _ _ _ _) (by decide) (.file isName_t rfl rfl)
  have hread : ((blocked t.print).put ["a"] .directory).readText "/a/../t" = .ok t.print := by
    refine readText_eq_ok.2 ⟨Bytes.ofText t.print, ?_, Bytes.text?_ofText _⟩
    rw [FileSystem.read, nodeAt_eq_ok.2 ⟨_, hfound⟩]
    rfl
  rw [readTable_of_readText hread, Table.parse?_print ht]

end

/-- A row that is refused may uncover another one, if the path of the table goes up again behind a
directory that is missing. -/
theorem refused_uncovers :
    let found : Table := ⟨[("v", ⟨true, false⟩)]⟩
    let s := run "/a/../t" { fs := blocked found.print }
      [.openFile, .use 0 (.decide "u" .outer true)]
    let acted := s.act "/a/../t" (.use 0 (.persist "u"))
    acted.1 = .error (.writeFailed "/a/../t" "Is a directory (os error 21)") ∧
      s.file "/a/../t" = .ok {} ∧ acted.2.file "/a/../t" = .ok found := by
  intro found s acted
  have hfound : found.Ascending := List.pairwise_singleton _ _
  have hs : s = ⟨⟨#[⟨Table.decide {} "u" .outer true, some "/a/../t"⟩], #[0]⟩,
      blocked found.print⟩ := by
    simp only [s, run, List.foldl_cons, List.foldl_nil, act, Store.openFile_eq, readTable_blocked]
    rfl
  have hacted : acted = (.error (.writeFailed "/a/../t" "Is a directory (os error 21)"),
      { s with fs := (blocked found.print).put ["a"] .directory }) := by
    simp only [acted, hs, act, use, Pool.store?]
    show (match Store.persist _ (blocked found.print) "u" with
      | (.error e, fs) => _
      | (.ok (), fs) => _) = _
    rw [Store.persist_eq rfl rfl, readTable_blocked]
    simp only [writeTable_blocked]
    rfl
  rw [hacted, hs]
  exact ⟨rfl, readTable_blocked, readTable_uncovered hfound⟩

end Shelf

end ConnectionSecurity.Waiver
