import Mathlib
import ConnectionSecurity.Method.Basic
import ConnectionSecurity.Proofs.Credential.Check
import ConnectionSecurity.Proofs.Profile.Setting
import ConnectionSecurity.Proofs.Waiver.Table

/-!
# What writing a method says about waivers

A waiver takes the check of the server away, so it may only be granted by a chooser that says so. A
chain of methods writes the waivers of its choosers one after the other, the outermost first, and
the certificates along with them. So the innermost chooser of a phase has the last word about it,
`chooser?`, and both the flag and the certificate of the phase are its own (`isWaived_write`,
`caCert_write`). Hence a flag is only set where no certificate is written.
-/

namespace ConnectionSecurity

open Method

variable {fs : FileSystem} {session : Session}

/-! ## One chooser -/

namespace Method.CaChooser

variable {c : CaChooser}

/-- What it takes to grant a waiver. -/
theorem waives_iff : c.waives fs = true ↔ c.path = none ∧ c.notRequired = true := by
  unfold waives check Credential.check
  cases c.path <;> simp [Except.isOk, Except.toBool]

/-- A chooser that grants a waiver writes no certificate. -/
theorem reference_eq_none_of_waives (h : c.waives fs = true) : c.reference fs = none := by
  obtain ⟨hpath, -⟩ := waives_iff.1 h
  simp [reference, check, hpath, Credential.check]

variable (state : Profile.Authentication × Waiver.Table) (phase : Phase)

theorem isWaived_write : (c.write fs session state).2.isWaived session.uuid phase =
    if c.phase = phase then c.waives fs else state.2.isWaived session.uuid phase := by
  simp [write, eq_comm]

theorem credentials_write : (c.write fs session state).1.credentials phase =
    if c.phase = phase then { state.1.credentials phase with caCert := c.reference fs }
    else state.1.credentials phase := by
  rw [write, Profile.Authentication.credentials_setCredentials]
  split
  next h => rw [h]
  next => rfl

theorem caCert_write : ((c.write fs session state).1.credentials phase).caCert =
    if c.phase = phase then c.reference fs else (state.1.credentials phase).caCert := by
  rw [credentials_write]
  split <;> rfl

end Method.CaChooser

/-! ## A chain of them -/

namespace AuthMethod

/-- The choosers of a chain, the outermost first. -/
def choosers : AuthMethod → List CaChooser
  | password _ => []
  | tls m => [m.ca]
  | leap _ => []
  | tunnel t inner => t.ca :: inner.choosers

/-- The chooser that has the last word about a phase: the innermost one of that phase. -/
def chooser? (m : AuthMethod) (phase : Phase) : Option CaChooser :=
  m.choosers.reverse.find? (·.phase = phase)

theorem chooser?_eq_none {m : AuthMethod} {phase : Phase} :
    m.chooser? phase = none ↔ ∀ c ∈ m.choosers, c.phase ≠ phase := by
  simp [chooser?]

theorem phase_of_chooser? {m : AuthMethod} {phase : Phase} {c : CaChooser}
    (h : m.chooser? phase = some c) : c ∈ m.choosers ∧ c.phase = phase :=
  ⟨List.mem_reverse.1 (List.mem_of_find?_eq_some h), by simpa using List.find?_some h⟩

/-- A chooser that shares its phase with no other one has the last word about it. -/
theorem chooser?_of_unshared {m : AuthMethod} {c : CaChooser} (hc : c ∈ m.choosers)
    (h : ∀ d ∈ m.choosers, d.phase = c.phase → d = c) : m.chooser? c.phase = some c := by
  cases hlast : m.chooser? c.phase with
  | none => exact absurd rfl (chooser?_eq_none.1 hlast c hc)
  | some d =>
      obtain ⟨hd, hphase⟩ := phase_of_chooser? hlast
      rw [h d hd hphase]

/-- The chooser of a tunnel has the last word only where the method inside has no say. -/
theorem chooser?_tunnel (t : Shell) (inner : AuthMethod) (phase : Phase) :
    (tunnel t inner).chooser? phase =
      (inner.chooser? phase).or (if t.ca.phase = phase then some t.ca else none) := by
  unfold chooser?
  rw [choosers, List.reverse_cons, List.find?_append]
  by_cases h : t.ca.phase = phase <;> simp [h]

/-! ## Writing a chain -/

theorem credentials_write_password (m : Password) (a : Profile.Authentication) (phase : Phase) :
    (m.write a).credentials phase = a.credentials phase := by
  unfold Password.write Login.write
  cases phase <;> cases m.slot <;> rfl

theorem credentials_write_options (o : TunnelOptions) (a : Profile.Authentication)
    (phase : Phase) : (o.write a).credentials phase = a.credentials phase := by
  cases o <;> cases phase <;> rfl

/-- TLS leaves the other phase alone. -/
theorem credentials_write_tls {m : Tls} {phase : Phase} (h : m.phase ≠ phase)
    (state : Profile.Authentication × Waiver.Table) :
    (m.write fs session state).1.credentials phase = state.1.credentials phase := by
  have hslot : ({ m.slot.write Tls.name state.1 with identity := some m.identity } :
      Profile.Authentication).credentials phase = state.1.credentials phase := by
    cases phase <;> cases m.slot <;> rfl
  have hca : m.ca.phase ≠ phase := h
  rw [Tls.write, CaChooser.credentials_write, if_neg hca,
    Profile.Authentication.credentials_setCredentials, if_neg h, hslot]

/-- All that the shell of a tunnel writes about a phase is the CA certificate. -/
theorem credentials_write_shell (t : Shell) (phase : Phase)
    (state : Profile.Authentication × Waiver.Table) :
    (t.write fs session state).1.credentials phase =
      if t.ca.phase = phase then { state.1.credentials phase with caCert := t.ca.reference fs }
      else state.1.credentials phase := by
  show (t.options.write (t.ca.write fs session _).1).credentials phase = _
  rw [credentials_write_options, CaChooser.credentials_write]
  cases phase <;> rfl

variable (fs : FileSystem) (session : Session) (a : Profile.Authentication)
  (waivers : Waiver.Table) (phase : Phase)

/-- The flag of a phase is that of the chooser with the last word; without one it stays. -/
theorem isWaived_write (m : AuthMethod) :
    (m.write fs session (a, waivers)).2.isWaived session.uuid phase =
      match m.chooser? phase with
      | some c => c.waives fs
      | none => waivers.isWaived session.uuid phase := by
  induction m generalizing a waivers with
  | password m => rfl
  | leap m => rfl
  | tls m =>
      show (m.ca.write fs session _).2.isWaived session.uuid phase = _
      rw [CaChooser.isWaived_write]
      by_cases h : m.ca.phase = phase <;> simp [chooser?, choosers, h]
  | tunnel t inner ih =>
      show (inner.write fs session (t.write fs session (a, waivers))).2.isWaived _ _ = _
      -- The method inside writes over what the shell wrote, unless it has no say about the phase.
      rw [ih, chooser?_tunnel]
      cases inner.chooser? phase with
      | some c => rfl
      | none =>
          show (t.ca.write fs session _).2.isWaived session.uuid phase = _
          rw [CaChooser.isWaived_write]
          by_cases h : t.ca.phase = phase <;> simp [h]

/-- The certificate of a phase is that of the chooser with the last word; without one it stays. -/
theorem caCert_write (m : AuthMethod) :
    ((m.write fs session (a, waivers)).1.credentials phase).caCert =
      match m.chooser? phase with
      | some c => c.reference fs
      | none => (a.credentials phase).caCert := by
  induction m generalizing a waivers with
  | password m => exact congrArg _ (credentials_write_password m a phase)
  | leap m => cases phase <;> rfl
  | tls m =>
      by_cases h : m.ca.phase = phase
      · show ((m.ca.write fs session _).1.credentials phase).caCert = _
        rw [CaChooser.caCert_write]
        simp [chooser?, choosers, h]
      · show ((m.write fs session _).1.credentials phase).caCert = _
        rw [credentials_write_tls h]
        simp [chooser?, choosers, h]
  | tunnel t inner ih =>
      show ((inner.write fs session (t.write fs session (a, waivers))).1.credentials _).caCert = _
      rw [ih, chooser?_tunnel]
      cases inner.chooser? phase with
      | some c => rfl
      | none =>
          show ((t.write fs session (a, waivers)).1.credentials phase).caCert = _
          rw [credentials_write_shell]
          by_cases h : t.ca.phase = phase <;> simp [h]

theorem row?_write_of_ne (m : AuthMethod) {u : String} (hu : u ≠ session.uuid) :
    (m.write fs session (a, waivers)).2.row? u = waivers.row? u := by
  induction m generalizing a waivers with
  | password m => rfl
  | leap m => rfl
  | tls m => exact Waiver.Table.row?_decide_of_ne _ _ _ hu
  | tunnel t inner ih => exact (ih _ _).trans (Waiver.Table.row?_decide_of_ne _ _ _ hu)

/-- A method with a chooser leaves a row for the connection, and none takes it away. -/
theorem exists_row?_write (m : AuthMethod)
    (h : m.choosers ≠ [] ∨ ∃ r, waivers.row? session.uuid = some r) :
    ∃ r, (m.write fs session (a, waivers)).2.row? session.uuid = some r := by
  have hdecided : ∀ (c : CaChooser) (state : Profile.Authentication × Waiver.Table),
      ∃ r, (c.write fs session state).2.row? session.uuid = some r := fun c state =>
    ⟨_, (state.2.row?_put session.uuid session.uuid _).trans (if_pos rfl)⟩
  induction m generalizing a waivers with
  | password m => exact h.resolve_left (absurd rfl)
  | leap m => exact h.resolve_left (absurd rfl)
  | tls m => exact hdecided m.ca _
  | tunnel t inner ih => exact ih _ _ (.inr (hdecided t.ca _))

/-- A method without a chooser leaves the whole table alone. -/
theorem waivers_write_of_choosers_eq_nil {m : AuthMethod} (h : m.choosers = []) :
    (m.write fs session (a, waivers)).2 = waivers := by
  cases m with
  | password m => rfl
  | leap m => rfl
  | tls m => cases h
  | tunnel t inner => cases h

/-! ## Waivers are granted on purpose only -/

/-- A fault of the chooser with the last word takes the waiver away, and leaves no certificate. -/
theorem write_of_fault {m : AuthMethod} {c : CaChooser} {fault : Fault}
    (hlast : m.chooser? phase = some c) (hfault : c.check fs = .error fault) :
    (m.write fs session (a, waivers)).2.isWaived session.uuid phase = false ∧
      ((m.write fs session (a, waivers)).1.credentials phase).caCert = none := by
  rw [isWaived_write, caCert_write, hlast]
  simp [CaChooser.waives, CaChooser.reference, hfault, Except.isOk, Except.toBool]

/-- **Writing a method grants a waiver on purpose only.** A flag that is set afterwards belongs to
a chooser of its phase whose box is ticked, which has no file and no fault, and then no
certificate of that phase is written; or the method has no chooser of the phase and the flag was
set before. A fault of the only chooser of a phase takes the flag away, whatever it was; where a
method has several choosers of one phase, the innermost decides, and a fault of it takes the flag
away. All other flags stay: those of a phase without a chooser, those of other connections, and the
whole table under a method without choosers. -/
theorem write_waives_on_purpose (m : AuthMethod) (fs : FileSystem) (session : Session)
    (a : Profile.Authentication) (waivers : Waiver.Table) :
    let written := m.write fs session (a, waivers)
    (∀ phase, written.2.isWaived session.uuid phase = true →
      (∃ c ∈ m.choosers, c.phase = phase ∧ c.notRequired = true ∧ c.path = none ∧
        (∃ found, c.check fs = .ok found) ∧ (written.1.credentials phase).caCert = none) ∨
      (∀ c ∈ m.choosers, c.phase ≠ phase) ∧ waivers.isWaived session.uuid phase = true) ∧
    (∀ c ∈ m.choosers, (∀ d ∈ m.choosers, d.phase = c.phase → d = c) →
      ∀ fault, c.check fs = .error fault →
        written.2.isWaived session.uuid c.phase = false ∧
          (written.1.credentials c.phase).caCert = none) ∧
    (∀ phase c fault, m.chooser? phase = some c → c.check fs = .error fault →
      written.2.isWaived session.uuid phase = false ∧
        (written.1.credentials phase).caCert = none) ∧
    (∀ phase, (∀ c ∈ m.choosers, c.phase ≠ phase) →
      written.2.isWaived session.uuid phase = waivers.isWaived session.uuid phase) ∧
    (∀ u, u ≠ session.uuid → written.2.row? u = waivers.row? u) ∧
    (m.choosers = [] → written.2 = waivers) := by
  intro written
  refine ⟨?_, ?_, ?_, ?_, ?_, ?_⟩
  · intro phase hflag
    rw [isWaived_write] at hflag
    cases hc : m.chooser? phase with
    | none =>
        rw [hc] at hflag
        exact .inr ⟨chooser?_eq_none.1 hc, hflag⟩
    | some c =>
        rw [hc] at hflag
        obtain ⟨hmem, hphase⟩ := phase_of_chooser? hc
        obtain ⟨hpath, hticked⟩ := CaChooser.waives_iff.1 hflag
        -- Without a path there is nothing to check, so no fault can hide behind the tick.
        refine .inl ⟨c, hmem, hphase, hticked, hpath, ⟨none, ?_⟩, ?_⟩
        · exact Credential.check_eq_ok_none.2 ⟨Credential.chosen?_eq_none.2 (.inl hpath), rfl⟩
        · rw [caCert_write, hc]
          exact CaChooser.reference_eq_none_of_waives hflag
  · intro c hc hunshared fault hfault
    exact write_of_fault fs session a waivers c.phase (chooser?_of_unshared hc hunshared) hfault
  · intro phase c fault hc hfault
    exact write_of_fault fs session a waivers phase hc hfault
  · intro phase hnone
    rw [isWaived_write, chooser?_eq_none.2 hnone]
  · intro u hu
    exact row?_write_of_ne fs session a waivers m hu
  · intro hnil
    exact waivers_write_of_choosers_eq_nil fs session a waivers hnil

/-- A tunnel whose CA file is missing, around TLS with a chooser of its own. -/
def brokenAround (ca : CaChooser) : AuthMethod :=
  .tunnel ⟨.peap .automatic, "", ⟨some "/ca", false, .outer⟩, .mschapv2⟩
    (.tls { Tls.new ca.phase .notSaved with ca })

/-- With two choosers of the outer phase the flag of the phase is set although the file of one of
them is missing. With a chooser of either phase both flags are decided: the fault of the one takes
its flag away, and the tick of the other sets its own. -/
theorem broken_file_is_waived :
    let session : Session := ⟨"uuid", false, .stored, true, .wireless⟩
    let written (ca : CaChooser) :=
      ((brokenAround ca).write (.blank []) session (.renewed none, {})).2
    ((∃ c ∈ (brokenAround ⟨none, true, .outer⟩).choosers, c.phase = .outer ∧
        ∃ fault, c.check (.blank []) = .error fault) ∧
      (written ⟨none, true, .outer⟩).isWaived "uuid" .outer = true) ∧
    (written ⟨none, true, .inner⟩).isWaived "uuid" .outer = false ∧
      Waiver.Table.isWaived {} "uuid" .inner = false ∧
      (written ⟨none, true, .inner⟩).isWaived "uuid" .inner = true := by
  intro session written
  have hmissing : (⟨some "/ca", false, .outer⟩ : CaChooser).check (.blank []) =
      .error (.unreadableFile .caCert "/ca" "No such file or directory (os error 2)") := by
    cbv
  refine ⟨⟨⟨_, List.mem_cons_self, rfl, _, hmissing⟩, ?_⟩, ?_, ?_, ?_⟩
  · cbv
  · cbv
  · cbv
  · cbv

end AuthMethod

end ConnectionSecurity
