import ConnectionSecurity.Proofs.Page.Run

/-!
# What a save leaves behind

A save checks the page first. If it is not fit, nothing changes. If it is, the profile is what the
page writes, whatever becomes of the file of waivers afterwards (`save_cases`).
-/

namespace ConnectionSecurity.Page

variable {fs : FileSystem} {p : Profile} {page : Page} {report : Report}

/-- The profile that a page writes. -/
def written (page : Page) (fs : FileSystem) (p : Profile) : Profile := (page.write fs p).1

theorem written_of_none (h : page.security = none) (fs : FileSystem) (p : Profile) :
    page.written fs p = p.clearSecurity := by
  rw [written, Page.write, h]

theorem written_of_some {s : Security} (h : page.security = some s) (fs : FileSystem)
    (p : Profile) :
    page.written fs p = (s.write fs page.session p page.store.table).1 := by
  rw [written, Page.write, h]

/-- What is written does not depend on how far the page has come. -/
theorem write_state (page : Page) (state : PageState) (fs : FileSystem) (p : Profile) :
    ({ page with state } : Page).write fs p =
      (page.written fs p, { (page.write fs p).2 with state }) := by
  obtain ⟨session, store, kind, security, _⟩ := page
  cases security <;> rfl

/-- Writing the waivers leaves the store behind the same file. -/
theorem path_write (page : Page) (fs : FileSystem) (p : Profile) :
    (page.write fs p).2.store.path = page.store.path := by
  unfold Page.write
  cases page.security <;> rfl

/-! ## The cases of a save -/

theorem result_validate (page : Page) (fs : FileSystem) (p : Profile) :
    (page.validate fs p).1 = page.check fs p := by
  unfold Page.validate
  cases page.check fs p <;> rfl

/-- **What a save can do.** It ends at a fault and changes nothing but the state of the page; or it
writes, and then the row of waivers reaches the file or not. -/
theorem save_cases (page : Page) (fs : FileSystem) (p : Profile) :
    (∃ fault, page.check fs p = .error fault ∧
      page.save fs p = ⟨.error (.fault fault), { page with state := .invalid }, p, fs⟩) ∨
    ∃ report fs', page.check fs p = .ok report ∧
      ((∃ e, (page.write fs p).2.store.persist fs page.session.uuid = (.error e, fs') ∧
        page.save fs p = ⟨.error (.waiver e), { (page.write fs p).2 with state := .validated },
          page.written fs p, fs'⟩) ∨
      ((page.write fs p).2.store.persist fs page.session.uuid = (.ok (), fs') ∧
        page.save fs p = ⟨.ok report, { (page.write fs p).2 with state := .saved },
          page.written fs p, fs'⟩)) := by
  have hsession := (page.same_write fs p).1
  unfold Page.save Page.validate
  cases page.check fs p with
  | error fault => exact .inl ⟨fault, rfl, rfl⟩
  | ok report =>
      simp only [write_state, hsession]
      cases (page.write fs p).2.store.persist fs page.session.uuid with
      | mk result fs' =>
          refine .inr ⟨report, fs', rfl, ?_⟩
          cases result with
          | error e => exact .inl ⟨e, rfl, rfl⟩
          | ok => exact .inr ⟨rfl, rfl⟩

/-- A save that succeeds has found the page fit, and leaves what the page writes. -/
theorem of_save_eq_ok (h : (page.save fs p).result = .ok report) :
    page.check fs p = .ok report ∧ (page.save fs p).profile = page.written fs p ∧
      (page.save fs p).page.store = (page.write fs p).2.store := by
  rcases page.save_cases fs p with ⟨fault, -, hs⟩ | ⟨found, fs', hc, ⟨e, -, hs⟩ | ⟨-, hs⟩⟩
  · rw [hs] at h
    cases h
  · rw [hs] at h
    cases h
  · rw [hs] at h ⊢
    obtain rfl : found = report := Except.ok.inj h
    exact ⟨hc, rfl, rfl⟩

/-- And it has persisted the row. -/
theorem persist_of_save_eq_ok (h : (page.save fs p).result = .ok report) :
    (page.write fs p).2.store.persist fs page.session.uuid = (.ok (), (page.save fs p).fs) := by
  rcases page.save_cases fs p with ⟨fault, -, hs⟩ | ⟨found, fs', -, ⟨e, -, hs⟩ | ⟨hpersist, hs⟩⟩
  · rw [hs] at h
    cases h
  · rw [hs] at h
    cases h
  · rw [hs]
    exact hpersist

/-- A fit page is saved if the row can be persisted. -/
theorem save_of_persist {fs' : FileSystem} (hcheck : page.check fs p = .ok report)
    (hpersist : (page.write fs p).2.store.persist fs page.session.uuid = (.ok (), fs')) :
    page.save fs p =
      ⟨.ok report, { (page.write fs p).2 with state := .saved }, page.written fs p, fs'⟩ := by
  rcases page.save_cases fs p with ⟨fault, hc, -⟩ | ⟨found, fs₁, hc, ⟨e, hp, -⟩ | ⟨hp, hs⟩⟩
  · cases hcheck.symm.trans hc
  · cases hpersist.symm.trans hp
  · cases hcheck.symm.trans hc
    cases hpersist.symm.trans hp
    exact hs

theorem state_of_save_eq_ok (h : (page.save fs p).result = .ok report) :
    (page.save fs p).page.state = .saved := by
  rcases page.save_cases fs p with ⟨fault, -, hs⟩ | ⟨found, fs', -, ⟨e, -, hs⟩ | ⟨-, hs⟩⟩
  · rw [hs] at h
    cases h
  · rw [hs] at h
    cases h
  · rw [hs]

/-- A save writes the profile if the page is fit, and else leaves it alone. -/
theorem profile_save (page : Page) (fs : FileSystem) (p : Profile) : (page.save fs p).profile =
    if (page.check fs p).isOk then page.written fs p else p := by
  rcases page.save_cases fs p with ⟨fault, hc, hs⟩ | ⟨found, fs', hc, ⟨e, -, hs⟩ | ⟨-, hs⟩⟩
  · rw [hs, hc]
    rfl
  · rw [hs, hc]
    rfl
  · rw [hs, hc]
    rfl

/-- The outcome of a save depends on the check, and on the table that is written to the file. -/
theorem result_save_congr {page' : Page} {p' : Profile} (hc : page.check fs p = page'.check fs p')
    (hstore : (page.write fs p).2.store = (page'.write fs p').2.store)
    (hsession : page.session = page'.session) :
    (page.save fs p).result = (page'.save fs p').result := by
  -- The checks agree, so do the tables, and the two saves end in the same case.
  rcases page.save_cases fs p with ⟨fault, h, hs⟩ | ⟨found, fs₁, h, hsaved⟩
  · rcases page'.save_cases fs p' with ⟨fault', h', hs'⟩ | ⟨found', fs₂, h', -⟩
    · rw [hs, hs', Except.error.inj (h.symm.trans (hc.trans h'))]
    · cases h.symm.trans (hc.trans h')
  · rcases page'.save_cases fs p' with ⟨fault', h', -⟩ | ⟨found', fs₂, h', hsaved'⟩
    · cases h.symm.trans (hc.trans h')
    · obtain rfl : found = found' := Except.ok.inj (h.symm.trans (hc.trans h'))
      rw [hstore, hsession] at hsaved
      rcases hsaved with ⟨e, hp, hs⟩ | ⟨hp, hs⟩
      · rcases hsaved' with ⟨e', hp', hs'⟩ | ⟨hp', -⟩
        · rw [hs, hs', Except.error.inj (congrArg Prod.fst (hp.symm.trans hp'))]
        · cases hp.symm.trans hp'
      · rcases hsaved' with ⟨e', hp', -⟩ | ⟨-, hs'⟩
        · cases hp.symm.trans hp'
        · rw [hs, hs']

/-! ## Fit pages -/

/-- The report of a security; without one there is nothing to report. -/
def Reports (fs : FileSystem) (security : Option Security) (report : Report) : Prop :=
  match security with
  | some s => s.validate fs = .ok report
  | none => report = []

/-- What it takes for a page to be fit. -/
theorem check_eq_ok : page.check fs p = .ok report ↔
    (p.isWireless = true → p.ssid ≠ none) ∧ (p.isAdhoc = true → page.kind.suitsAdhoc = true) ∧
      Reports fs page.security report := by
  unfold Page.check
  split
  next hssid =>
    simp only [Bool.and_eq_true, Option.isNone_iff_eq_none] at hssid
    exact ⟨fun h => (by cases h), fun h => absurd hssid.2 (h.1 hssid.1)⟩
  next hssid =>
    have hssid : p.isWireless = true → p.ssid ≠ none := fun hw hn => hssid (by simp [hw, hn])
    split
    next hadhoc =>
      simp only [Bool.and_eq_true, Bool.not_eq_true'] at hadhoc
      exact ⟨fun h => (by cases h), fun h => absurd (h.2.1 hadhoc.1) (by simp [hadhoc.2])⟩
    next hadhoc =>
      have hadhoc : p.isAdhoc = true → page.kind.suitsAdhoc = true := fun ha => by
        simpa [ha] using hadhoc
      cases page.security with
      | some s => exact ⟨fun h => ⟨hssid, hadhoc, h⟩, fun h => h.2.2⟩
      | none =>
          exact ⟨fun h => ⟨hssid, hadhoc, (Except.ok.inj h).symm⟩, fun h => congrArg _ h.2.2.symm⟩

end ConnectionSecurity.Page
