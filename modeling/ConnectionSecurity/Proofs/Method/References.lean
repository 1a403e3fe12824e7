import ConnectionSecurity.Proofs.Credential.Holding
import ConnectionSecurity.Proofs.Method.Nag

/-!
# What validated is what is written

A fit method refers to the files that were chosen, each found by the same check that validated it.
The CA certificate of a phase is that of its chooser; the key and the user certificate are those of
the TLS at the end of the chain (`keys_write`). So nothing that was chosen is dropped
(`references_write`).
-/

namespace ConnectionSecurity

open Method Credential

variable {fs : FileSystem} {report : Report}

/-! ## TLS -/

namespace Method.Tls

variable {m : Tls}

/-- The key that fit TLS writes is the chosen one. A PKCS#12 key stands for its certificate too; with
any other the user certificate is the chosen one. -/
theorem rel_references (h : m.validate fs = .ok report) :
    ∃ key cert, m.keyReference fs = some key ∧ m.clientReference fs = some cert ∧
      Option.Rel (RefersTo fs .privateKey) (chosen? m.privateKey) (some key) ∧
      if key.format = .pkcs12 then cert = key
      else Option.Rel (RefersTo fs .clientCert) (chosen? m.clientCert) (some cert) := by
  obtain ⟨-, -, key, -, hkey, hclient, -⟩ := validate_eq_ok.1 h
  obtain ⟨href, hcases⟩ := references_of_fit hkey hclient
  rcases hcases with ⟨hformat, hreference⟩ | ⟨hformat, cert, hcert, hreference⟩
  · refine ⟨_, _, href, hreference, rel_of_check hkey, ?_⟩
    show if key.format = .pkcs12 then _ else _
    rw [if_pos hformat]
  · refine ⟨_, _, href, hreference, rel_of_check hkey, ?_⟩
    show if key.format = .pkcs12 then _ else _
    rw [if_neg hformat]
    exact rel_of_check hcert

end Method.Tls

theorem Method.CaChooser.rel_reference {c : CaChooser} (h : c.validate fs = .ok report) :
    Option.Rel (RefersTo fs .ca) (chosen? c.path) (c.reference fs) := by
  obtain ⟨found, hfound, -⟩ := validate_eq_ok.1 h
  rw [reference_of_check hfound]
  exact rel_of_check hfound

namespace AuthMethod

/-! ## Chains -/

/-- The TLS at the end of a chain. -/
def tls? : AuthMethod → Option Tls
  | password _ => none
  | tls m => some m
  | leap _ => none
  | tunnel _ inner => inner.tls?

/-- The TLS that has to do with a phase. -/
def tlsOf? (m : AuthMethod) (phase : Phase) : Option Tls := m.tls?.filter (·.phase = phase)

variable {m : AuthMethod} {t : Tls} {k : MethodKind} {phase : Phase}

theorem tlsOf?_eq_some : m.tlsOf? phase = some t ↔ m.tls? = some t ∧ t.phase = phase := by
  simp [tlsOf?, Option.filter_eq_some_iff]

/-- The TLS at the end of a fit chain is fit. -/
theorem validate_of_tls? (h : m.validate fs = .ok report) (ht : m.tls? = some t) :
    ∃ report', t.validate fs = .ok report' := by
  induction m generalizing report with
  | password m => cases ht
  | leap m => cases ht
  | tls m =>
      obtain rfl := Option.some.inj ht
      exact ⟨report, h⟩
  | tunnel shell inner ih =>
      obtain ⟨_, -, h⟩ := Except.bind_eq_ok.1 h
      obtain ⟨innerReport, hinner, -⟩ := Except.bind_eq_ok.1 h
      exact ih hinner ht

/-- No two choosers of a method are for the same phase. -/
theorem Fits.chooser?_phase (h : m.Fits k) {c : CaChooser} (hc : c ∈ m.choosers) :
    m.chooser? c.phase = some c := by
  apply chooser?_of_unshared hc
  intro d hd hphase
  cases m with
  | password m => cases hc
  | leap m => cases hc
  | tls m => rw [List.mem_singleton.1 hc, List.mem_singleton.1 hd]
  | tunnel shell inner =>
      obtain ⟨-, houter, -, hinner⟩ := h
      cases inner with
      | password inner => rw [List.mem_singleton.1 hc, List.mem_singleton.1 hd]
      | leap m => exact hinner.elim
      | tunnel shell inner => exact hinner.elim
      | tls m =>
          -- The shell is for the outer phase, and what runs inside for the inner one.
          have hinner : m.ca.phase = .inner := hinner
          simp only [choosers, List.mem_cons, List.not_mem_nil, or_false] at hc hd
          rcases hc with rfl | rfl <;> rcases hd with rfl | rfl
          · rfl
          · rw [hinner, houter] at hphase
            cases hphase
          · rw [hinner, houter] at hphase
            cases hphase
          · rfl

/-! ## Writing -/

/-- The files that are shown to the server. -/
def keys (c : Profile.Credentials) : Option Profile.FileRef × Option Profile.FileRef :=
  (c.privateKey, c.clientCert)

/-- The key and the user certificate of a phase are those of its TLS; without it they stay. -/
theorem keys_write (m : AuthMethod) (fs : FileSystem) (session : Session) (phase : Phase)
    (state : Profile.Authentication × Waiver.Table) :
    keys ((m.write fs session state).1.credentials phase) =
      match m.tlsOf? phase with
      | some t => (t.keyReference fs, t.clientReference fs)
      | none => keys (state.1.credentials phase) := by
  induction m generalizing state with
  | password m => exact congrArg keys (credentials_write_password m state.1 phase)
  | leap m => cases phase <;> rfl
  | tls m =>
      show keys ((m.write fs session state).1.credentials phase) = _
      by_cases h : m.phase = phase
      · subst h
        have htls : (tls m).tlsOf? m.phase = some m := tlsOf?_eq_some.2 ⟨rfl, rfl⟩
        rw [Tls.credentials_write, htls]
        rfl
      · have htls : (tls m).tlsOf? phase = none := by simp [tlsOf?, tls?, Option.filter, h]
        rw [credentials_write_tls h, htls]
  | tunnel shell inner ih =>
      show keys ((inner.write fs session (shell.write fs session state)).1.credentials phase) = _
      rw [ih]
      show (match inner.tlsOf? phase with | some t => _ | none => _) = _
      have hshell : keys ((shell.write fs session state).1.credentials phase) =
          keys (state.1.credentials phase) := by
        rw [credentials_write_shell]
        split <;> rfl
      rw [hshell]
      rfl

/-- The credentials of a phase refer to what was chosen. With a PKCS#12 key, the user certificate is
the key; with any other, it is the chosen one. -/
structure Refers (fs : FileSystem) (chooser? : Option CaChooser) (tls? : Option Tls)
    (c : Profile.Credentials) : Prop where
  ca : Option.Rel (RefersTo fs .ca) (chooser?.bind (chosen? ·.path)) c.caCert
  key : Option.Rel (RefersTo fs .privateKey) (tls?.bind (chosen? ·.privateKey)) c.privateKey
  client : if c.privateKey.any (·.format = .pkcs12) then c.clientCert = c.privateKey
    else Option.Rel (RefersTo fs .clientCert) (tls?.bind (chosen? ·.clientCert)) c.clientCert
  /-- TLS has both. -/
  both : c.privateKey.isSome = tls?.isSome ∧ c.clientCert.isSome = tls?.isSome

/-- **What validated is what is written.** A fit method that writes into a bare setting refers to all
that was chosen, and to nothing else. -/
theorem references_write (h : m.validate fs = .ok report) (session : Session) (phase : Phase)
    (systemCaCerts : Bool) (password outer inner : Secret.Flags) (waivers : Waiver.Table) :
    Refers fs (m.chooser? phase) (m.tlsOf? phase) ((m.write fs session
      (.bare systemCaCerts password outer inner, waivers)).1.credentials phase) := by
  obtain ⟨flags, hbare⟩ : ∃ flags, Profile.Authentication.credentials
      (.bare systemCaCerts password outer inner) phase = { privateKeyPasswordFlags := flags } := by
    cases phase <;> exact ⟨_, rfl⟩
  have hca := caCert_write fs session (.bare systemCaCerts password outer inner) waivers phase m
  have hkeys := m.keys_write fs session phase (.bare systemCaCerts password outer inner, waivers)
  generalize (m.write fs session _).1.credentials phase = c at hca hkeys ⊢
  rw [hbare] at hca hkeys
  have hrel : Option.Rel (RefersTo fs .ca) ((m.chooser? phase).bind (chosen? ·.path)) c.caCert := by
    rw [hca]
    cases hc : m.chooser? phase with
    | none => exact .none
    | some chooser =>
        obtain ⟨_, hfit⟩ := validate_of_mem_choosers h (phase_of_chooser? hc).1
        exact CaChooser.rel_reference hfit
  cases ht : m.tlsOf? phase with
  | none =>
      rw [ht] at hkeys
      obtain ⟨hkey, hclient⟩ : c.privateKey = none ∧ c.clientCert = none := Prod.mk.inj hkeys
      constructor
      · exact hrel
      · rw [hkey]
        exact .none
      · rw [hkey, hclient, if_neg (by simp)]
        exact .none
      · rw [hkey, hclient]
        exact ⟨rfl, rfl⟩
  | some t =>
      rw [ht] at hkeys
      obtain ⟨_, hfit⟩ := validate_of_tls? h (tlsOf?_eq_some.1 ht).1
      obtain ⟨key, cert, hreference, hreference', hrelKey, hcert⟩ := Tls.rel_references hfit
      obtain ⟨hkey, hclient⟩ : c.privateKey = some key ∧ c.clientCert = some cert := by
        rw [← hreference, ← hreference']
        exact Prod.mk.inj hkeys
      constructor
      · exact hrel
      · rw [hkey]
        exact hrelKey
      · rw [hkey, hclient]
        simpa using hcert
      · rw [hkey, hclient]
        exact ⟨rfl, rfl⟩

end AuthMethod

end ConnectionSecurity
