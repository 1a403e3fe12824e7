import ConnectionSecurity.Proofs.Method.Fit

/-!
# Nagging about CA certificates

A report nags about a phase if it warns that no CA certificate is chosen there. What a chooser
nags about is what it writes: no certificate, and no waiver (`CaChooser.nags_iff`). A chain of
methods nags for each of its choosers in order (`AuthMethod.nagged_validate`).

The two would not agree on an empty path beside a ticked box. A load can show both; nobody can
choose them, since every change of a chooser ends with at most one of the two
(`CaChooser.not_clashes_change`).
-/

namespace ConnectionSecurity

open Method

variable {fs later : FileSystem} {session session' : Session} {report report' : Report}

/-! ## Reports -/

/-- The phase that a warning nags about. -/
def Warning.nagged? : Warning → Option Phase
  | missingCaCertificate phase => some phase
  | unencryptedPrivateKey _ => none

/-- The phases that a report nags about, in order. -/
def nagged (report : Report) : List Phase := report.filterMap Warning.nagged?

theorem mem_nagged {phase : Phase} : phase ∈ nagged report ↔
    Warning.missingCaCertificate phase ∈ report := by
  rw [nagged, List.mem_filterMap]
  constructor
  · rintro ⟨warning, hmem, hphase⟩
    cases warning with
    | unencryptedPrivateKey path => cases hphase
    | missingCaCertificate phase' =>
        obtain rfl := Option.some.inj hphase
        exact hmem
  · intro hmem
    exact ⟨_, hmem, rfl⟩

theorem nagged_append (report report' : Report) :
    nagged (report ++ report') = nagged report ++ nagged report' :=
  List.filterMap_append

/-! ## One chooser -/

namespace Method.CaChooser

variable {c : CaChooser}

/-- The chooser asks for a certificate: it writes none, and its box is not ticked. -/
def nags (c : CaChooser) (fs : FileSystem) : Bool := (c.reference fs).isNone && !c.notRequired

/-- An empty path stands beside a ticked box. -/
def Clashes (c : CaChooser) : Prop := c.path = some "" ∧ c.notRequired = true

/-- A fit chooser nags in its report if it asks for a certificate. -/
theorem nagged_validate (h : c.validate fs = .ok report) :
    nagged report = if c.nags fs then [c.phase] else [] := by
  obtain ⟨found, hcheck, rfl⟩ := validate_eq_ok.1 h
  rw [nags, reference_of_check hcheck]
  cases found <;> cases c.notRequired <;> rfl

/-- A fit chooser without a certificate has no path or an empty one. -/
theorem path_of_reference_eq_none (h : c.validate fs = .ok report) (hc : c.reference fs = none) :
    c.path = none ∨ c.path = some "" := by
  obtain ⟨found, hcheck, -⟩ := validate_eq_ok.1 h
  rw [reference_of_check hcheck, Option.map_eq_none_iff] at hc
  subst hc
  exact Credential.chosen?_eq_none.1 (Credential.check_eq_ok_none.1 hcheck).1

/-- Without a certificate the waiver that is written is the box. -/
theorem waives_of_reference_eq_none (h : c.validate fs = .ok report) (hclash : ¬c.Clashes)
    (hc : c.reference fs = none) : c.waives fs = c.notRequired := by
  have hpath : c.notRequired = true → c.path = none := fun hticked =>
    (path_of_reference_eq_none h hc).resolve_right fun hempty => hclash ⟨hempty, hticked⟩
  rw [Bool.eq_iff_iff, waives_iff]
  exact ⟨fun hwaives => hwaives.2, fun hticked => ⟨hpath hticked, hticked⟩⟩

/-- **A fit chooser asks for a certificate exactly if it writes neither a certificate nor a
waiver.** -/
theorem nags_iff (h : c.validate fs = .ok report) (hclash : ¬c.Clashes) :
    c.nags fs = true ↔ c.reference fs = none ∧ c.waives fs = false := by
  rw [nags, Bool.and_eq_true, Option.isNone_iff_eq_none, Bool.not_eq_true']
  refine and_congr_right fun hc => ?_
  rw [waives_of_reference_eq_none h hclash hc]

/-- The same of the warning in the report and of what the write leaves. -/
theorem mem_validate_iff (h : c.validate fs = .ok report) (hclash : ¬c.Clashes)
    (state : Profile.Authentication × Waiver.Table) :
    let written := c.write fs session state
    .missingCaCertificate c.phase ∈ report ↔
      (written.1.credentials c.phase).caCert = none ∧
        written.2.isWaived session.uuid c.phase = false := by
  intro written
  rw [caCert_write, isWaived_write, if_pos rfl, if_pos rfl, ← nags_iff h hclash, ← mem_nagged,
    nagged_validate h]
  cases c.nags fs <;> simp

/-- A chooser that is read back asks for a certificate if it did before, as long as the row is the
one that it wrote. -/
theorem nags_reopened {row : Waiver.Row} (h : c.validate fs = .ok report) (hclash : ¬c.Clashes)
    (h' : (c.reopened fs row).validate later = .ok report') (hrow : row.get c.phase = c.waives fs) :
    (c.reopened fs row).nags later = c.nags fs := by
  cases hc : c.reference fs with
  | none =>
      have hpath : (c.reopened fs row).path = none := congrArg (Option.map _) hc
      have hreference : (c.reopened fs row).reference later = none := by
        simp [reference, check, Credential.check, hpath]
      have hbox : (c.reopened fs row).notRequired = c.notRequired :=
        hrow.trans (waives_of_reference_eq_none h hclash hc)
      rw [nags, nags, hreference, hc, hbox]
  | some file =>
      have hpath : (c.reopened fs row).path = some file.path := congrArg (Option.map _) hc
      have hne : file.path ≠ "" := by
        obtain ⟨found, hcheck, -⟩ := validate_eq_ok.1 h
        obtain ⟨accepted, rfl, rfl⟩ :=
          Option.map_eq_some_iff.1 ((reference_of_check hcheck).symm.trans hc)
        obtain ⟨q, -, hfile, -⟩ := Credential.check_eq_ok_some.1 hcheck
        exact FileSystem.canonicalPath_ne_empty (Credential.canonicalPath_of_checkFile hfile)
      -- A path that is not empty is checked, so being fit it is referred to.
      have hsome : (c.reopened fs row).reference later ≠ none := by
        intro hnone
        rcases path_of_reference_eq_none h' hnone with hn | hempty
        · rw [hpath] at hn
          cases hn
        · rw [hpath] at hempty
          exact hne (Option.some.inj hempty)
      obtain ⟨again, hagain⟩ := Option.ne_none_iff_exists'.1 hsome
      rw [nags, nags, hagain, hc]
      rfl

/-! ### Changes -/

/-- Something that a user does to a chooser. -/
inductive Change where
  | choose (path : Option Path)
  | tick (notRequired : Bool)
deriving DecidableEq, Repr

/-- The chooser after a change. -/
def change (c : CaChooser) : Change → CaChooser
  | .choose path => c.choose path
  | .tick notRequired => c.tick notRequired

/-- The chooser after changes in order. -/
def changed (c : CaChooser) (changes : List Change) : CaChooser := changes.foldl change c

theorem phase_changed (c : CaChooser) (changes : List Change) :
    (c.changed changes).phase = c.phase := by
  induction changes generalizing c with
  | nil => rfl
  | cons e rest ih =>
      refine (ih (c.change e)).trans ?_
      cases e <;> rfl

/-- A change leaves a path or a tick, but not both. -/
theorem not_clashes_change (c : CaChooser) (e : Change) : ¬(c.change e).Clashes := by
  rintro ⟨hpath, hticked⟩
  cases e with
  | choose path =>
      obtain rfl : path = some "" := hpath
      exact Bool.noConfusion ((Bool.and_false _).symm.trans hticked)
  | tick notRequired =>
      obtain rfl : notRequired = true := hticked
      cases hpath

/-- After any change an empty path and a tick no longer stand side by side. -/
theorem not_clashes_changed (c : CaChooser) {changes : List Change} (hne : changes ≠ []) :
    ¬(c.changed changes).Clashes := by
  induction changes generalizing c with
  | nil => exact absurd rfl hne
  | cons e rest ih =>
      cases rest with
      | nil => exact c.not_clashes_change e
      | cons e' rest' => exact ih (c.change e) (List.cons_ne_nil e' rest')

end Method.CaChooser

/-! ## A chain of them -/

/-- The method behind a menu entry checks the server itself. -/
def MethodKind.checksServer : MethodKind → Bool
  | tls | fast | ttls | peap => true
  | _ => false

namespace AuthMethod

variable {m : AuthMethod} {k : MethodKind} {c : CaChooser}

/-- In a fit chain every chooser is fit. -/
theorem validate_of_mem_choosers (h : m.validate fs = .ok report) (hc : c ∈ m.choosers) :
    ∃ report', c.validate fs = .ok report' := by
  induction m generalizing report with
  | password m => cases hc
  | leap m => cases hc
  | tls m =>
      obtain rfl := List.mem_singleton.1 hc
      obtain ⟨-, caReport, -, hca, -⟩ := Tls.validate_eq_ok.1 h
      exact ⟨caReport, hca⟩
  | tunnel t inner ih =>
      obtain ⟨shellReport, ht, h⟩ := Except.bind_eq_ok.1 h
      obtain ⟨innerReport, hinner, -⟩ := Except.bind_eq_ok.1 h
      rcases List.mem_cons.1 hc with rfl | hc
      · obtain ⟨_, -, hca⟩ := Except.bind_eq_ok.1 ht
        exact ⟨shellReport, hca⟩
      · exact ih hinner hc

theorem nagged_validate_login {l : Login} (h : l.validate = .ok report) : nagged report = [] := by
  unfold Login.validate at h
  split at h
  next => cases h
  next =>
    split at h
    next =>
      obtain rfl := Except.ok.inj h
      rfl
    next => cases h

theorem nagged_validate_tls {m : Tls} (h : m.validate fs = .ok report) :
    nagged report = if m.ca.nags fs then [m.ca.phase] else [] := by
  obtain ⟨-, caReport, key, hca, -, -, rfl⟩ := Tls.validate_eq_ok.1 h
  have hkey : nagged (if key.isOpenKey .privateKey then [.unencryptedPrivateKey key.path] else []) =
      [] := by
    split <;> rfl
  rw [nagged_append, CaChooser.nagged_validate hca, hkey, List.append_nil]

/-- **A fit chain nags about the phases of the choosers that ask for a certificate.** -/
theorem nagged_validate (h : m.validate fs = .ok report) :
    nagged report = (m.choosers.filter (·.nags fs)).map (·.phase) := by
  induction m generalizing report with
  | password m => exact nagged_validate_login h
  | leap m => exact nagged_validate_login h
  | tls m =>
      rw [nagged_validate_tls h, choosers, List.filter_cons]
      cases m.ca.nags fs <;> rfl
  | tunnel t inner ih =>
      obtain ⟨shellReport, ht, h⟩ := Except.bind_eq_ok.1 h
      obtain ⟨innerReport, hinner, h⟩ := Except.bind_eq_ok.1 h
      obtain ⟨_, -, hca⟩ := Except.bind_eq_ok.1 ht
      obtain rfl := Except.pure_eq_ok.1 h
      rw [nagged_append, CaChooser.nagged_validate hca, ih hinner, choosers, List.filter_cons]
      cases t.ca.nags fs <;> rfl

/-! ## What is read back of a chain -/

/-- A menu entry makes at most one chooser, that of the outer phase. -/
theorem choosers_make (k : MethodKind) (a : Option Profile.Authentication) (session : Session)
    (waivers : Waiver.Table) : (k.make a session waivers).choosers =
      if k.checksServer then [.ofSetting a .outer session waivers] else [] := by
  cases k with
  | tls => cases a <;> rfl
  | _ => rfl

theorem choosers_loadSecrets (m : AuthMethod) (a : Profile.Authentication) :
    (m.loadSecrets a).choosers = m.choosers := by
  induction m with
  | tunnel t inner ih => exact congrArg (t.ca :: ·) ih
  | _ => rfl

/-- The chooser that the menu entry of a method made, if it makes one, is the only one of the outer
phase. -/
theorem Fits.filter_choosers (h : m.Fits k) :
    m.choosers.filter (·.phase = .outer) = (m.chooser? .outer).toList ∧
      (m.chooser? .outer).isSome = k.checksServer := by
  cases m with
  | password m =>
      refine ⟨rfl, ?_⟩
      obtain ⟨kind, slot, login⟩ := m
      obtain ⟨hkind, -⟩ : kind.methodKind? = some k ∧ slot = .outer := h
      cases kind <;> cases hkind <;> rfl
  | leap m =>
      obtain rfl : k = .leap := h
      exact ⟨rfl, rfl⟩
  | tls m =>
      obtain ⟨rfl, hphase⟩ : k = .tls ∧ m.ca.phase = .outer := h
      simp [chooser?, choosers, hphase, MethodKind.checksServer]
  | tunnel t inner =>
      obtain ⟨rfl, hphase, -, hinner⟩ := h
      have hkind : t.kind.methodKind.checksServer = true := by cases t.kind <;> rfl
      cases inner with
      | password inner => simp [chooser?, choosers, hphase, hkind]
      | tls m =>
          have hinner : m.ca.phase = .inner := hinner
          simp [chooser?, choosers, hphase, hinner, hkind]
      | leap m => exact hinner.elim
      | tunnel t inner => exact hinner.elim

/-- Unless TLS runs inside a tunnel, all choosers are of the outer phase. -/
theorem Fits.phase_of_mem_choosers (h : m.Fits k) (htls : m.tunnelsTls = false)
    (hc : c ∈ m.choosers) : c.phase = .outer := by
  cases m with
  | password m => cases hc
  | leap m => cases hc
  | tls m =>
      obtain rfl := List.mem_singleton.1 hc
      exact h.2
  | tunnel t inner =>
      cases inner with
      | password inner =>
          obtain rfl := List.mem_singleton.1 hc
          exact h.2.1
      | tls m => cases htls
      | leap m => exact h.2.2.2.elim
      | tunnel t inner => exact h.2.2.2.elim

/-- Such a method nags about the outer phase only. -/
theorem Fits.filter_nagged (hfits : m.Fits k) (htls : m.tunnelsTls = false)
    (h : m.validate fs = .ok report) : (nagged report).filter (· = .outer) = nagged report := by
  rw [nagged_validate h, List.filter_eq_self]
  intro phase hphase
  obtain ⟨c, hc, rfl⟩ := List.mem_map.1 hphase
  have houter := hfits.phase_of_mem_choosers htls (List.mem_filter.1 hc).1
  simp [houter]

variable (fs : FileSystem) (session : Session) (a : Profile.Authentication)
  (waivers waivers' : Waiver.Table)

/-- Of the choosers that a method wrote, the one of the outer phase is read back. -/
theorem choosers_make_write (hfits : m.Fits k) (session' : Session) :
    let written := (m.write fs session (a, waivers)).1
    ((k.make (some written) session' waivers').loadSecrets written).choosers =
      (m.chooser? .outer).toList.map (·.reopened fs (waivers'.row session'.uuid)) := by
  intro written
  rw [choosers_loadSecrets, choosers_make, ← hfits.filter_choosers.2]
  cases hc : m.chooser? .outer with
  | none => rfl
  | some c =>
      have hcert : (written.credentials .outer).caCert = c.reference fs := by
        rw [caCert_write, hc]
      have hphase : c.phase = .outer := (phase_of_chooser? hc).2
      show [CaChooser.ofSetting (some written) .outer session' waivers'] = [c.reopened fs _]
      simp only [CaChooser.ofSetting, CaChooser.reopened, Option.bind_some, hcert, hphase]
      rfl

/-- A method that is read back nags about the outer phase if it did before, and about nothing
else, as long as the row is the one that was written. -/
theorem nagged_make_write (hfits : m.Fits k) (hclash : ∀ c ∈ m.choosers, ¬c.Clashes)
    (h : m.validate fs = .ok report) :
    let written := m.write fs session (a, waivers)
    waivers'.row session'.uuid = written.2.row session.uuid →
    ((k.make (some written.1) session' waivers').loadSecrets written.1).validate later =
      .ok report' →
    nagged report' = (nagged report).filter (· = .outer) := by
  intro written hrow h'
  have hread := choosers_make_write fs session a waivers waivers' hfits session'
  have hold : (nagged report).filter (· = .outer) =
      ((m.chooser? .outer).toList.filter (·.nags fs)).map (·.phase) := by
    rw [nagged_validate h, List.filter_map, List.filter_filter, ← hfits.filter_choosers.1,
      List.filter_filter]
    simp [Bool.and_comm]
  rw [hold, nagged_validate h', hread]
  cases hc : m.chooser? .outer with
  | none => rfl
  | some c =>
      -- The one outer chooser is fit before and after, and its flag is the one that it wrote.
      obtain ⟨hmem, hphase⟩ := phase_of_chooser? hc
      obtain ⟨caReport, hca⟩ := validate_of_mem_choosers h hmem
      obtain ⟨caReport', hca'⟩ := validate_of_mem_choosers h'
        (c := c.reopened fs (waivers'.row session'.uuid))
        (by rw [hread, hc]; exact List.mem_cons_self)
      have hwritten : (waivers'.row session'.uuid).get c.phase = c.waives fs := by
        have hflag := isWaived_write fs session a waivers .outer m
        rw [hc] at hflag
        rw [hrow, hphase]
        exact hflag
      have hnags := CaChooser.nags_reopened hca (hclash c hmem) hca' hwritten
      show ([c.reopened fs _].filter (·.nags later)).map (·.phase) =
        ([c].filter (·.nags fs)).map (·.phase)
      rw [List.filter_cons, List.filter_cons, hnags]
      cases c.nags fs <;> rfl

end AuthMethod

end ConnectionSecurity
