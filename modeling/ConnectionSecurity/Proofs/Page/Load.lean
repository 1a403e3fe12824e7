import ConnectionSecurity.Proofs.Page.Nag

/-!
# The box of a page that was just loaded

Filling a page reads the row of its connection from the file first, so the box of its chooser shows
what is persisted, whatever was decided in memory before (`row_load`). A file that cannot be read
says nothing about the row. Then the row in memory stays where it is, and the box shows it: a waiver
that was never written is shown as if it were persisted. This is the only case in which the box and
the file part ways (`ticked_load`).
-/

namespace ConnectionSecurity

open Method

variable {fs : FileSystem} {p : Profile}

namespace Page

/-! ## The choosers of a loaded page -/

/-- A profile asks for 802.1x with a method that checks the server itself. -/
def checksServer (session : Session) (p : Profile) : Bool :=
  match SecurityKind.ofProfile p with
  | .wpaEnterprise | .dynamicWep =>
    (MethodKind.ofSetting p.authentication session.medium).checksServer
  | _ => false

theorem choosers_loadSecrets (s : Security) (p : Profile) :
    (s.loadSecrets p).choosers = s.choosers := by
  cases s with
  | enterprise w =>
      show (w.loadSecrets p).method.choosers = w.method.choosers
      unfold Security.Enterprise.loadSecrets
      cases p.authentication with
      | none => rfl
      | some a => exact AuthMethod.choosers_loadSecrets w.method a
  | _ => rfl

/-- A loaded page has at most one chooser: that of the outer phase, made from the profile and the
table. -/
theorem choosers_load (page : Page) (fs : FileSystem) (p : Profile) :
    (page.load fs p).choosers = if checksServer page.session p then
      [.ofSetting p.authentication .outer page.session (page.load fs p).store.table] else [] := by
  have hmake : ∀ dynamicWep, ((Security.enterprise (.ofProfile dynamicWep p page.session
      (page.load fs p).store.table)).loadSecrets p).choosers =
      if (MethodKind.ofSetting p.authentication page.session.medium).checksServer then
        [.ofSetting p.authentication .outer page.session (page.load fs p).store.table]
      else [] := by
    intro dynamicWep
    rw [choosers_loadSecrets]
    exact AuthMethod.choosers_make _ _ _ _
  show ((Security.ofKind? (SecurityKind.ofProfile p) p page.session
    (page.load fs p).store.table).map (·.loadSecrets p)).elim [] (·.choosers) = _
  unfold checksServer
  cases SecurityKind.ofProfile p with
  | wpaEnterprise => exact hmake false
  | dynamicWep => exact hmake true
  | _ => rfl

/-! ## The box -/

/-- **When the box of a loaded page is ticked.** Take any page, whatever its store holds in memory
and whatever has become of the file behind it, and load any profile whose method checks the server.
The page then has one chooser, that of the outer phase. Its box is ticked exactly if the row that is
persisted waives the check, unless the file cannot be read; then it is ticked exactly if the row in
memory waives the check. So the box shows what is persisted but for one case: a file that cannot be
read, beside a waiver in memory. -/
theorem ticked_load (page : Page) (fs : FileSystem) (p : Profile)
    (h : checksServer page.session p = true) :
    ∃ c, (page.load fs p).choosers = [c] ∧ c.phase = .outer ∧
      (∀ r, page.store.persisted? fs page.session.uuid = some r →
        (c.notRequired = true ↔ r.get c.phase = true)) ∧
      (∀ path e, page.store.path = some path → Waiver.readTable fs path = .error e →
        (c.notRequired = true ↔ page.store.table.isWaived page.session.uuid c.phase = true)) ∧
      ((c.notRequired = true ↔ ∃ r, page.store.persisted? fs page.session.uuid = some r ∧
          r.get c.phase = true) ↔
        ¬(page.store.persisted? fs page.session.uuid = none ∧
          page.store.table.isWaived page.session.uuid c.phase = true)) := by
  have hchoosers := page.choosers_load fs p
  rw [if_pos h] at hchoosers
  have hrow := page.row_load fs p
  have hticked : (CaChooser.ofSetting p.authentication .outer page.session
      (page.load fs p).store.table).notRequired =
      ((page.store.persisted? fs page.session.uuid).getD
        (page.store.table.row page.session.uuid)).get .outer := by
    rw [← hrow]
    rfl
  refine ⟨_, hchoosers, rfl, ?_, ?_, ?_⟩
  · intro r hr
    rw [hticked, hr]
    exact Iff.rfl
  · intro path e hpath hread
    rw [hticked, Waiver.Store.persisted?_eq_none.2 ⟨path, e, hpath, hread⟩]
    exact Iff.rfl
  · rw [hticked]
    cases hpersisted : page.store.persisted? fs page.session.uuid with
    | some r => simp [CaChooser.ofSetting]
    | none =>
        simp [CaChooser.ofSetting, Waiver.Table.isWaived]

/-- A root directory with one file in it. -/
def oneFile (content : Bytes) : FileSystem := (FileSystem.blank []).put ["t"] (.file content)

/-- A profile whose server is checked: PEAP, and nothing more. -/
def peapHome : Profile :=
  { home.secureWith (.ofKeyMgmt "wpa-eap") with
    authentication := some { Profile.Authentication.renewed none with eap := ["peap"] } }

theorem checksServer_peapHome : checksServer homeSession peapHome = true := by decide

theorem readText_oneFile (text : String) :
    (oneFile (Bytes.ofText text)).readText "/t" = .ok text := by
  have hread : ∀ content, (oneFile content).read "/t" = .ok content := by
    intro content
    cbv
  exact FileSystem.readText_eq_ok.2 ⟨_, hread _, Bytes.text?_ofText text⟩

/-- The file waives the check of the server, and memory knows nothing about it. The box of a loaded
page is ticked. -/
theorem ticked_load_waived :
    let page := Page.new homeSession ⟨{}, some "/t"⟩
    let fs := oneFile (Bytes.ofText "[connections.uuid]\nignore-ca-cert = true\n")
    checksServer homeSession peapHome = true ∧
      page.store.persisted? fs "uuid" = some ⟨true, false⟩ ∧
      ∃ c, (page.load fs peapHome).choosers = [c] ∧ c.phase = .outer ∧
        c.notRequired = true := by
  intro page fs
  have hparse : Waiver.Table.parse? "[connections.uuid]\nignore-ca-cert = true\n" =
      some ⟨[("uuid", ⟨true, false⟩)]⟩ := by cbv
  have hrow : page.store.persisted? fs "uuid" = some ⟨true, false⟩ := by
    show (Waiver.readTable fs "/t").toOption.map (·.row "uuid") = _
    rw [Waiver.readTable_of_readText (readText_oneFile _), hparse]
    rfl
  obtain ⟨c, hc, hphase, hticked, -⟩ := ticked_load page fs peapHome checksServer_peapHome
  refine ⟨checksServer_peapHome, hrow, c, hc, hphase, (hticked _ hrow).2 ?_⟩
  rw [hphase]
  rfl

/-- The file is broken, so no row can be read. The box is ticked all the same if the check was
waived in memory. -/
theorem ticked_load_broken :
    let page := Page.new homeSession ⟨outerWaived, some "/t"⟩
    let fs := oneFile (Bytes.ofText "[connections")
    Waiver.readTable fs "/t" = .error (.invalidFormat "/t") ∧
      page.store.persisted? fs "uuid" = none ∧
      ∃ c, (page.load fs peapHome).choosers = [c] ∧ c.notRequired = true := by
  intro page fs
  have hread : Waiver.readTable fs "/t" = .error (.invalidFormat "/t") := by
    have hparse : Waiver.Table.parse? "[connections" = none := by cbv
    rw [Waiver.readTable_of_readText (readText_oneFile _), hparse]
  have hnone : page.store.persisted? fs "uuid" = none :=
    Waiver.Store.persisted?_eq_none.2 ⟨"/t", _, rfl, hread⟩
  have hrow : (page.load fs peapHome).store.table.row "uuid" = ⟨true, false⟩ := by
    refine (page.row_load fs peapHome).trans ?_
    show (page.store.persisted? fs "uuid").getD _ = _
    rw [hnone]
    cbv
  refine ⟨hread, hnone, _, (page.choosers_load fs _).trans (if_pos checksServer_peapHome), ?_⟩
  show ((page.load fs peapHome).store.table.row "uuid").get .outer = true
  rw [hrow]
  rfl

end Page

end ConnectionSecurity
