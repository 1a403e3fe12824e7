import ConnectionSecurity.Proofs.Method.References
import ConnectionSecurity.Proofs.Page.Nag

/-!
# What a page validated is what it writes

A save checks the files that were chosen and looks at them again when it writes. Both times it finds
the same, so a page with 802.1x that is saved refers to all that was chosen
(`writes_what_validated`).
-/

namespace ConnectionSecurity.Page

open Method Credential

variable {fs : FileSystem} {session : Session} {p : Profile} {page : Page} {report : Report}
  {w : Security.Enterprise}

/-- What a fit page with 802.1x writes refers to what was chosen. -/
theorem references_written (hs : page.security = some (.enterprise w))
    (h : page.check fs p = .ok report) (phase : Phase) :
    (page.written fs p).authentication =
        some (w.written fs page.session p page.store.table) ∧
      AuthMethod.Refers fs (w.method.chooser? phase) (w.method.tlsOf? phase)
        ((w.written fs page.session p page.store.table).credentials phase) := by
  constructor
  · rw [written_of_some hs]
    exact Security.Enterprise.authentication_write
  · obtain ⟨systemCaCerts, password, outer, inner, hbase, -⟩ :=
      Security.Enterprise.base_eq_bare p page.session
    rw [Security.Enterprise.written, hbase]
    exact AuthMethod.references_write (validate_of_check hs h) page.session phase _ _ _ _ _

/-- **What validated is what is written.** Take a page that any run of actions has reached, with
802.1x on it, and a profile that it was saved into. Each chooser of a CA certificate is the only one
of its phase. The credentials that were written refer, phase by phase, to the CA certificate of the
chooser and to the key and the user certificate of TLS: to nothing if nothing was chosen, and
otherwise to the absolute canonical path of the regular file that was chosen, in the format that its
first 8192 bytes are recognised by, and these hold a certificate or a key that can be decoded. With
a PKCS#12 key the user certificate is the key, with any other it is the chosen one; TLS always has
both. -/
theorem writes_what_validated (session : Session) (store : Waiver.Store) (actions : List Action)
    (fs : FileSystem) (p : Profile) (w : Security.Enterprise) (report : Report)
    (hs : ((Page.new session store).run actions).security = some (.enterprise w))
    (h : (((Page.new session store).run actions).save fs p).result = .ok report) :
    ∃ a, (((Page.new session store).run actions).save fs p).profile.authentication = some a ∧
      (∀ c ∈ w.method.choosers, w.method.chooser? c.phase = some c) ∧
      ∀ phase, AuthMethod.Refers fs (w.method.chooser? phase) (w.method.tlsOf? phase)
        (a.credentials phase) := by
  obtain ⟨adhoc, hwell⟩ := (coherent_run session store actions).wellFormed _ hs
  obtain ⟨hcheck, hprofile, -⟩ := of_save_eq_ok h
  obtain ⟨hauthentication, -⟩ := references_written hs hcheck .outer
  refine ⟨_, hprofile ▸ hauthentication, fun c hc => hwell.fits.2.2.chooser?_phase hc, ?_⟩
  intro phase
  exact (references_written hs hcheck phase).2

/-- TLS with the key. -/
def keyedTls : Tls where
  identity := "me"
  ca := .empty .outer
  clientCertOpen := false
  privateKey := some "/key"
  keyPassword := { text := "secret" }

/-- The page with the key, saved. -/
def keySaved : Saved := ((Page.new homeSession .inMemory).run enterKey).save keyRing home

/-- The page with the key is saved, and what it writes refers to what was chosen. -/
theorem writes_what_validated_enterKey :
    keySaved.result = .ok [.missingCaCertificate .outer] ∧
      ∃ a, keySaved.profile.authentication = some a ∧
        AuthMethod.Refers keyRing (some keyedTls.ca) (some keyedTls) (a.credentials .outer) := by
  have hresult : keySaved.result = .ok [.missingCaCertificate .outer] := by cbv
  have hsecurity : ((Page.new homeSession .inMemory).run enterKey).security =
      some (.enterprise ⟨false, .wireless, .tls, .tls keyedTls⟩) := by cbv
  obtain ⟨a, ha, -, hrefers⟩ := writes_what_validated homeSession .inMemory enterKey keyRing home _
    [.missingCaCertificate .outer] hsecurity hresult
  have htls : (AuthMethod.tls keyedTls).tlsOf? .outer = some keyedTls := by decide
  have hchooser : (AuthMethod.tls keyedTls).chooser? .outer = some keyedTls.ca := by decide
  refine ⟨hresult, a, ha, ?_⟩
  rw [← htls, ← hchooser]
  exact hrefers .outer

end ConnectionSecurity.Page
