import Mathlib
import ConnectionSecurity.CommandLine.Run
import ConnectionSecurity.Proofs.Page.Refusal

/-!
# Validating a profile from the command line

The profile is loaded, the table of waivers is opened, the page is filled and saved, and only then
is the profile written. Everything that can go wrong before that is a case of `Refused`, and in each of
them the files are as before, the staging file of the table and the directories of the log apart
(`validate_refused`). Without `--save` there is nothing to write at all.
-/

namespace ConnectionSecurity.CommandLine

variable {fs : FileSystem} {env : Environment} {settings : Settings} {path : Path} {isNew : Bool}
  {content : Bytes}

/-! ## The log -/

theorem grows_ensure (fs : FileSystem) (dir : Path) : fs.Grows (Environment.ensure fs dir).2 := by
  unfold Environment.ensure
  split
  next => exact .refl fs
  next =>
    have hmake := fs.grows_createDirectories dir
    cases hmade : fs.createDirectories dir with
    | mk made fs' =>
        rw [hmade] at hmake
        cases made <;> exact hmake

theorem grows_logDir (env : Environment) (fs : FileSystem) : fs.Grows (env.logDir fs).2 := by
  have hdata : fs.Grows (env.dataDir fs).2 := by
    unfold Environment.dataDir
    cases env.dataPath with
    | error e => exact .refl fs
    | ok dir => exact grows_ensure fs dir
  unfold Environment.logDir
  cases hmade : env.dataDir fs with
  | mk made fs' =>
      rw [hmade] at hdata
      cases made with
      | error e => exact hdata
      | ok dir => exact hdata.trans (grows_ensure fs' _)

/-- Preparing the log makes directories and nothing else. -/
theorem grows_prepareLog (fs : FileSystem) (env : Environment) :
    fs.Grows (prepareLog fs env).2 := by
  have hlog := grows_logDir env fs
  unfold prepareLog
  cases hmade : env.logDir fs with
  | mk made fs' =>
      rw [hmade] at hlog
      cases made with
      | error e => exact hlog
      | ok dir =>
          simp only
          have hdir := fs'.grows_createDirectories dir
          cases hagain : fs'.createDirectories dir with
          | mk made fs'' =>
              rw [hagain] at hdir
              cases made <;> exact hlog.trans hdir

/-! ## The task -/

/-- Without `--save` no file is touched. -/
theorem validate_unsaved : (validate fs env settings path false isNew).2 = fs := by
  unfold validate
  simp only
  split
  next => rfl
  next profile page _ =>
    simp only [Bool.false_eq_true, if_false]
    cases page.validate fs profile with
    | mk result page => cases result <;> rfl

/-- What goes wrong before the profile is written. -/
inductive Refused (fs : FileSystem) (env : Environment) (settings : Settings) (path : Path)
    (isNew : Bool) : Prop where
  | load {e : Failure} (h : Profile.load fs path = .error e)
  | place {p : Profile} {e : Failure} (hload : Profile.load fs path = .ok p)
      (h : settings.waiverPath env = .error e)
  | openTable {p : Profile} {waivers : Path} {e : Waiver.StoreError}
      (hload : Profile.load fs path = .ok p) (hplace : settings.waiverPath env = .ok waivers)
      (h : Waiver.Store.openFile fs waivers = .error e)
  /-- The page is not fit, or the row of the connection cannot be persisted. -/
  | save {p : Profile} {waivers : Path} {store : Waiver.Store} {e : SaveError}
      (hload : Profile.load fs path = .ok p) (hplace : settings.waiverPath env = .ok waivers)
      (hopen : Waiver.Store.openFile fs waivers = .ok store)
      (h : (((Page.new (.forProfile p settings.secrets isNew) store).load fs p).save fs p).result =
        .error e)

/-- A refusal is reported, and leaves what an attempt to persist a row leaves. -/
theorem validate_refused (h : Refused fs env settings path isNew) :
    ∃ message fs', validate fs env settings path true isNew = (.error message, fs') ∧
      (fs' = fs ∨ ∃ waivers, settings.waiverPath env = .ok waivers ∧
        Waiver.Kept fs waivers fs') := by
  unfold validate
  cases h with
  | @load e h =>
      rw [h]
      exact ⟨e.message, fs, rfl, .inl rfl⟩
  | @place p e hload h =>
      rw [hload, h]
      exact ⟨e.message, fs, rfl, .inl rfl⟩
  | @openTable p waivers e hload hplace h =>
      rw [hload, hplace]
      simp only [Except.mapError, bind, Except.bind, h]
      exact ⟨e.message, fs, rfl, .inl rfl⟩
  | @save p waivers store e hload hplace hopen h =>
      rw [hload, hplace]
      simp only [Except.mapError, bind, Except.bind, hopen, pure, Except.pure, if_true, h]
      refine ⟨e.message, _, rfl, ?_⟩
      cases e with
      | fault fault => exact .inl (by rw [Page.save_of_fault h])
      | waiver e =>
          obtain ⟨-, w, hpath, hkept⟩ := Page.save_of_waiver h
          rw [Page.path_load] at hpath
          obtain rfl : w = waivers := by
            rw [Waiver.Store.openFile_eq, Except.map_eq_ok] at hopen
            obtain ⟨t, -, rfl⟩ := hopen
            exact (Option.some.inj hpath).symm
          exact .inr ⟨w, rfl, hkept⟩

/-! ## The program -/

/-- The files once the log is prepared. -/
def Request.prepared (r : Request) (fs : FileSystem) (env : Environment) : FileSystem :=
  if r.logToFile then (prepareLog fs env).2 else fs

theorem grows_prepared (r : Request) (fs : FileSystem) (env : Environment) :
    fs.Grows (r.prepared fs env) := by
  unfold Request.prepared
  split
  · exact grows_prepareLog fs env
  · exact .refl fs

/-- What goes wrong with a request to validate and save, before the profile is written. -/
inductive Request.Refused (r : Request) (fs : FileSystem) (env : Environment) (path : Path)
    (isNew : Bool) : Prop where
  | settings {e : Failure} (h : r.settings fs env = .error e)
  | log {message : String} (hlog : r.logToFile = true)
      (h : (prepareLog fs env).1 = .error message)
  | task {settings : Settings} (hsettings : r.settings fs env = .ok settings)
      (h : CommandLine.Refused (r.prepared fs env) env settings path isNew)

variable {r : Request}

/-- How a request ends: settings that cannot be read, a log that cannot be prepared, or the task. -/
theorem run_cases (r : Request) (fs : FileSystem) (env : Environment) :
    (∃ message, r.run fs env = (.error message, fs)) ∨
    (∃ message, r.run fs env = (.error message, r.prepared fs env)) ∨
    ∃ settings, r.settings fs env = .ok settings ∧
      (r.logToFile = true → (prepareLog fs env).1 = .ok ()) ∧
      r.run fs env = r.task.run (r.prepared fs env) env settings := by
  unfold Request.run Request.prepared
  cases r.settings fs env with
  | error e => exact .inl ⟨e.message, rfl⟩
  | ok settings =>
      cases r.logToFile with
      | false => exact .inr (.inr ⟨settings, rfl, nofun, rfl⟩)
      | true =>
          simp only [if_true]
          cases prepareLog fs env with
          | mk made fs' =>
              cases made with
              | error message => exact .inr (.inl ⟨message, rfl⟩)
              | ok => exact .inr (.inr ⟨settings, rfl, fun _ => rfl, rfl⟩)

/-- Without `--save` the files are those with the log prepared, or not even that. -/
theorem run_unsaved (htask : r.task = .validate path false isNew) :
    (r.run fs env).2 = fs ∨ (r.run fs env).2 = r.prepared fs env := by
  rcases run_cases r fs env with ⟨message, h⟩ | ⟨message, h⟩ | ⟨settings, -, -, h⟩
  · exact .inl (congrArg Prod.snd h)
  · exact .inr (congrArg Prod.snd h)
  · refine .inr ((congrArg Prod.snd h).trans ?_)
    rw [htask]
    exact validate_unsaved

/-- A refused request is reported, and leaves what an attempt to persist a row leaves. -/
theorem run_refused (htask : r.task = .validate path true isNew)
    (h : r.Refused fs env path isNew) :
    ∃ message fs', r.run fs env = (.error message, fs') ∧
      (fs.Grows fs' ∨ ∃ settings waivers, r.settings fs env = .ok settings ∧
        settings.waiverPath env = .ok waivers ∧ Waiver.Kept (r.prepared fs env) waivers fs') := by
  have hgrows := grows_prepared r fs env
  rcases run_cases r fs env with
    ⟨message, hrun⟩ | ⟨message, hrun⟩ | ⟨settings, hsettings, hlogged, hrun⟩
  · exact ⟨message, fs, hrun, .inl (.refl fs)⟩
  · exact ⟨message, _, hrun, .inl hgrows⟩
  · rw [htask] at hrun
    cases h with
    | settings h => cases hsettings.symm.trans h
    | log hlog h => cases (hlogged hlog).symm.trans h
    | @task settings' hsettings' h =>
        obtain rfl : settings = settings' := Except.ok.inj (hsettings.symm.trans hsettings')
        obtain ⟨message, fs', hvalidate, hleft⟩ := validate_refused h
        refine ⟨message, fs', hrun.trans hvalidate, ?_⟩
        rcases hleft with rfl | ⟨waivers, hplace, hkept⟩
        · exact .inl hgrows
        · exact .inr ⟨settings, waivers, hsettings, hplace, hkept⟩

/-- The profile is not the staging file of the table of waivers that the settings name. -/
def Request.Apart (r : Request) (fs : FileSystem) (env : Environment) (path : Path) : Prop :=
  ∀ settings waivers, r.settings fs env = .ok settings → settings.waiverPath env = .ok waivers →
    (Waiver.ground (r.prepared fs env) waivers).seat? path ≠
      (Waiver.ground (r.prepared fs env) waivers).seat? (Waiver.stagingPath waivers)

/-- **A refused save changes nothing.** A page that is saved and found unfit is told so; else it is
as before, and so are its profile, its table of waivers and all files. If the row of the connection
cannot be persisted, the page is not saved and the table in the file is the old one; only the
staging file and directories on the way to it may be new.

A program that is run to validate a profile without saving it changes no file, and nothing at all
unless it logs. If it is to save the profile and is refused before it comes to write it, it ends
with an error, and the profile reads byte by byte as before, as long as it is not the staging file
of the table. -/
theorem refusal_leaves_files :
    (∀ (page : Page) (fs : FileSystem) (p : Profile),
      let saved := page.save fs p
      (∀ fault, saved.result = .error (.fault fault) →
        saved.page = { page with state := .invalid } ∧ saved.profile = p ∧ saved.fs = fs) ∧
      ∀ e, saved.result = .error (.waiver e) → saved.page.state ≠ .saved ∧
        ∃ path, page.store.path = some path ∧ Waiver.Kept fs path saved.fs) ∧
    ∀ (args : List String) (fs : FileSystem) (env : Environment) (r : Request) (path : Path)
      (isNew : Bool), Reading.of args = .run r →
      let ran := run args fs env
      (r.task = .validate path false isNew →
        fs.Grows ran.fs ∧ (r.logToFile = false → ran.fs = fs)) ∧
      (r.task = .validate path true isNew → r.Apart fs env path → r.Refused fs env path isNew →
        ran.code = 1 ∧ ∀ content, fs.read path = .ok content → ran.fs.read path = .ok content) := by
  constructor
  · intro page fs p saved
    constructor
    · intro fault h
      have hsave : saved = _ := Page.save_of_fault h
      rw [hsave]
      exact ⟨rfl, rfl, rfl⟩
    · intro e h
      obtain ⟨hstate, hkept⟩ := Page.save_of_waiver h
      refine ⟨fun hsaved => ?_, hkept⟩
      cases hstate.symm.trans hsaved
  · intro args fs env r path isNew hargs ran
    have hfs : ran.fs = (r.run fs env).2 := by
      show (run args fs env).fs = _
      unfold run
      rw [hargs]
      simp only
      cases r.run fs env with
      | mk result fs' => cases result <;> rfl
    constructor
    · intro htask
      rw [hfs]
      rcases run_unsaved htask with h | h
      · rw [h]
        exact ⟨.refl fs, fun _ => rfl⟩
      · rw [h]
        refine ⟨grows_prepared r fs env, fun hlog => ?_⟩
        simp [Request.prepared, hlog]
    · intro htask hapart hrefused
      obtain ⟨message, fs', hrun, hleft⟩ := run_refused htask hrefused
      constructor
      · show (run args fs env).code = 1
        simp only [run, hargs, hrun]
      · intro content hread
        rw [hfs, hrun]
        rcases hleft with hgrows | ⟨settings, waivers, hsettings, hplace, hkept⟩
        · exact hgrows.stays.read_eq_ok hread
        · exact hkept.other path content (hapart settings waivers hsettings hplace)
            ((grows_prepared r fs env).stays.read_eq_ok hread)

/-- A profile without the name of its network, and its document. -/
def nameless : Profile := { connection := { id := "h", uuid := "u" } }

def namelessText : String := "[connection]\nid = \"h\"\nuuid = \"u\"\ntype = \"802-11-wireless\"\n"

/-- Settings that name a table of waivers, and their document. -/
def remote : Settings := { waiverFile := some "/w" }

def remoteText : String := "[ca_ignore]\npath = \"/w\"\n"

/-- A root directory with two files in it. -/
def twoFiles (first second : String) : FileSystem :=
  ((FileSystem.blank []).put ["t"] (.file (Bytes.ofText first))).put ["c"]
    (.file (Bytes.ofText second))

section
variable (first second : String)

theorem read_twoFiles : (twoFiles first second).read "/t" = .ok (Bytes.ofText first) ∧
    (twoFiles first second).read "/c" = .ok (Bytes.ofText second) := by
  unfold twoFiles
  generalize Bytes.ofText first = a, Bytes.ofText second = b
  constructor
  · cbv
  · cbv

theorem pathExists_twoFiles : (twoFiles first second).pathExists "/c" = true ∧
    (twoFiles first second).pathExists "/w" = false := by
  unfold twoFiles
  generalize Bytes.ofText first = a, Bytes.ofText second = b
  constructor
  · cbv
  · cbv

theorem readText_twoFiles : (twoFiles first second).readText "/t" = .ok first ∧
    (twoFiles first second).readText "/c" = .ok second := by
  obtain ⟨hfirst, hsecond⟩ := read_twoFiles first second
  exact ⟨FileSystem.readText_eq_ok.2 ⟨_, hfirst, Bytes.text?_ofText first⟩,
    FileSystem.readText_eq_ok.2 ⟨_, hsecond, Bytes.text?_ofText second⟩⟩

/-- The staging file of the table at the root is not the first file. -/
theorem seat?_twoFiles : (Waiver.ground (twoFiles first second) "/w").seat? "/t" ≠
    (Waiver.ground (twoFiles first second) "/w").seat? (Waiver.stagingPath "/w") := by
  have hground : Waiver.ground (twoFiles first second) "/w" = twoFiles first second := rfl
  have hfirst : (twoFiles first second).seat? ("/" ++ "t") = some ["t"] :=
    FileSystem.seat?_root ⟨by decide, by decide, by decide⟩ (by decide) (by decide)
      (.inr ⟨_, rfl⟩)
  have hstaging : (twoFiles first second).seat? ("/" ++ "w.toml.tmp") = some ["w.toml.tmp"] :=
    FileSystem.seat?_root ⟨by decide, by decide, by decide⟩ (by decide) (by decide) (.inl rfl)
  have hpath : Waiver.stagingPath "/w" = "/" ++ "w.toml.tmp" := by decide
  have hslash : "/t" = "/" ++ "t" := by decide
  rw [hground, hpath, hslash, hfirst, hstaging]
  decide

end

theorem load_nameless (second : String) :
    Profile.load (twoFiles namelessText second) "/t" = .ok nameless := by
  have hparse : Profile.parse? namelessText = some nameless := by cbv
  rw [Profile.load, (readText_twoFiles _ _).1]
  simp only [Except.mapError, bind, Except.bind, hparse]
  rfl

theorem load_remote (first : String) :
    Settings.load (twoFiles first remoteText) "/c" = .ok remote := by
  have hread : Toml.read? remoteText =
      some [("ca_ignore", .table [("path", .text "/w")])] := by cbv
  rw [Settings.load, (pathExists_twoFiles _ _).1, (readText_twoFiles _ _).2]
  simp only [Bool.not_true, Bool.false_eq_true, if_false, Except.mapError, bind, Except.bind, hread]
  rfl

/-- A profile without a name is refused: by the page, and by the program, which leaves the profile
as it is. A page whose table cannot be read is refused as well, and the file stays broken. -/
theorem refusal_leaves_nameless :
    let fs := twoFiles namelessText remoteText
    let session := Session.forProfile nameless {} false
    let page := Page.new session ⟨{}, some "/w"⟩
    let ran := run ["validate", "--save", "--config", "/c", "/t"] fs {}
    ((page.save fs nameless).result = .error (.fault .missingSsid) ∧
      (page.save fs nameless).page = { page with state := .invalid }) ∧
    ran.code = 1 ∧ ran.fs.read "/t" = .ok (Bytes.ofText namelessText) ∧
    let broken := twoFiles "[connections" ""
    let page := Page.new session ⟨Waiver.Table.decide {} "u" .outer true, some "/t"⟩
    (page.save broken (.newWireless "h" "u" "net")).result =
        .error (.waiver (.invalidFormat "/t")) ∧
      (page.save broken (.newWireless "h" "u" "net")).fs.read "/t" =
        .ok (Bytes.ofText "[connections") := by
  intro fs session page ran
  have hunfit : ∀ page : Page,
      (page.save fs nameless).result = .error (.fault .missingSsid) := fun _ => rfl
  refine ⟨⟨hunfit page, ?_⟩, ?_⟩
  · exact ((refusal_leaves_files.1 page fs nameless).1 _ (hunfit page)).1
  have hargs : Reading.of ["validate", "--save", "--config", "/c", "/t"] =
      .run ⟨some "/c", false, .validate "/t" true false⟩ := by cbv
  have hplace : remote.waiverPath {} = .ok "/w" := rfl
  have hapart : Request.Apart ⟨some "/c", false, .validate "/t" true false⟩ fs {} "/t" := by
    intro settings waivers hsettings hwaivers
    obtain rfl : remote = settings := Except.ok.inj ((load_remote _).symm.trans hsettings)
    obtain rfl : "/w" = waivers := Except.ok.inj (hplace.symm.trans hwaivers)
    exact seat?_twoFiles namelessText remoteText
  have hopen : Waiver.Store.openFile fs "/w" = .ok ⟨{}, some "/w"⟩ := by
    rw [Waiver.Store.openFile_eq,
      Waiver.readTable_of_not_pathExists (pathExists_twoFiles _ _).2]
    rfl
  have hrefused : Request.Refused ⟨some "/c", false, .validate "/t" true false⟩ fs {} "/t" false :=
    .task (load_remote _) (.save (load_nameless _) hplace hopen (hunfit _))
  obtain ⟨hcode, hkept⟩ :=
    (refusal_leaves_files.2 _ fs {} _ "/t" false hargs).2 rfl hapart hrefused
  refine ⟨hcode, hkept _ (read_twoFiles _ _).1, ?_⟩
  intro broken page
  have hread : Waiver.readTable broken "/t" = .error (.invalidFormat "/t") := by
    have hparse : Waiver.Table.parse? "[connections" = none := by cbv
    rw [Waiver.readTable_of_readText (readText_twoFiles _ _).1, hparse]
  have hpersist : page.store.persist broken "u" = (.error (.invalidFormat "/t"), broken) := by
    rw [Waiver.Store.persist_eq rfl rfl, hread]
  have hresult : (page.save broken (.newWireless "h" "u" "net")).result =
      .error (.waiver (.invalidFormat "/t")) := by
    rcases page.save_cases broken (.newWireless "h" "u" "net") with
      ⟨fault, hfault, -⟩ | ⟨report, fs', -, ⟨e, herror, hs⟩ | ⟨hok, -⟩⟩
    · cases hfault
    · rw [hs]
      obtain rfl : Waiver.StoreError.invalidFormat "/t" = e :=
        Except.error.inj (congrArg Prod.fst (hpersist.symm.trans herror))
      rfl
    · cases congrArg Prod.fst (hpersist.symm.trans hok)
  obtain ⟨-, path, hpath, hsaved⟩ := (refusal_leaves_files.1 page broken _).2 _ hresult
  obtain rfl : "/t" = path := Option.some.inj hpath
  exact ⟨hresult, hsaved.table _ (read_twoFiles _ _).1⟩

end ConnectionSecurity.CommandLine
