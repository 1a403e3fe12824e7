import Mathlib
import ConnectionSecurity.Proofs.Method.Reopen

/-!
# The chooser of the user certificate

A PKCS#12 key brings its certificate along, so choosing one empties the chooser of the user
certificate and closes it. What a touch does to this chooser depends on the chooser alone
(`CertChooser.after`), so a run of touches is followed there (`exists_run`).

There is one way to a closed chooser that shows something (`closed_after_iff`): a certificate was
read from a setting that has it beside a PKCS#12 key (`stowed`), and no key was chosen since. Every
PKCS#12 key that is written makes such a setting (`stowed_write`). A key of another format that is
chosen next opens the chooser and leaves the certificate in it; only a PKCS#12 key that is chosen
takes it away (`shown_after`).
-/

namespace ConnectionSecurity.Method.Tls

open AuthMethod (tls)

variable {m₀ : Tls} {t : Touch} {touches : List Touch}

/-! ## What can happen to TLS -/

/-- What can happen to TLS once it was made. Each edit may find other files. -/
inductive Touch where
  | edit (fs : FileSystem) (session : Session) (e : Edit)
  | loadSecrets (a : Profile.Authentication)

namespace Touch

def on (m : AuthMethod) : Touch → AuthMethod
  | edit fs session e => (m.edit fs session e).2
  | loadSecrets a => m.loadSecrets a

/-- A key is chosen, or taken away. -/
def choosesKey : Touch → Bool
  | edit _ _ (.privateKey _) => true
  | _ => false

/-- A PKCS#12 key is chosen. -/
def choosesContainer : Touch → Bool
  | edit fs _ (.privateKey path) => path.bind (Credential.keyFormat? fs) == some .pkcs12
  | _ => false

/-- The chooser of the user certificate is used, closed or not. -/
def choosesCert : Touch → Bool
  | edit _ _ (.clientCert _) => true
  | _ => false

end Touch

/-! ## The chooser by itself -/

/-- The chooser of the user certificate: whether it is open, and what it shows. -/
structure CertChooser where
  isOpen : Bool
  shown : Option Path
deriving DecidableEq

def certChooser (m : Tls) : CertChooser := ⟨m.clientCertOpen, m.clientCert⟩

namespace CertChooser

variable {c : CertChooser} {x : Path}

/-- The chooser after a touch of the method. -/
def after (c : CertChooser) : Touch → CertChooser
  | .edit _ _ (.clientCert path) => if c.isOpen then { c with shown := path } else c
  | .edit fs _ (.privateKey path) =>
    if path.bind (Credential.keyFormat? fs) = some .pkcs12 then ⟨false, none⟩
    else { c with isOpen := true }
  | _ => c

/-- A touch neither closes a chooser that shows something nor fills one that is closed. -/
theorem after_eq_closed_iff :
    c.after t = ⟨false, some x⟩ ↔ c = ⟨false, some x⟩ ∧ t.choosesKey = false := by
  obtain ⟨isOpen, shown⟩ := c
  cases t with
  | loadSecrets a => simp [after, Touch.choosesKey]
  | edit fs session e =>
      cases e with
      | clientCert path => cases isOpen <;> simp [after, Touch.choosesKey]
      | privateKey path =>
          simp only [after, Touch.choosesKey, Bool.true_eq_false, and_false, iff_false]
          split
          · simp
          · simp
      | _ => simp [after, Touch.choosesKey]

/-- **A chooser that is closed and shows something** was so from the beginning, and no key was
chosen. -/
theorem closed_after_iff : touches.foldl after c = ⟨false, some x⟩ ↔
    c = ⟨false, some x⟩ ∧ touches.any Touch.choosesKey = false := by
  induction touches generalizing c with
  | nil => simp
  | cons t touches ih =>
      rw [List.foldl_cons, ih, after_eq_closed_iff, List.any_cons, Bool.or_eq_false_iff, and_assoc]

/-- What is shown changes by a choice in this chooser, and is taken away by a PKCS#12 key. -/
theorem shown_after_one (h : t.choosesCert = false) :
    (c.after t).shown = if t.choosesContainer then none else c.shown := by
  cases t with
  | loadSecrets a => rfl
  | edit fs session e =>
      cases e with
      | clientCert path => cases h
      | privateKey path =>
          simp only [after, Touch.choosesContainer, beq_iff_eq]
          split
          · rfl
          · rfl
      | _ => rfl

/-- **What is shown without a choice in this chooser**: what was there, or nothing once a PKCS#12
key was chosen. -/
theorem shown_after (h : touches.any Touch.choosesCert = false) :
    (touches.foldl after c).shown =
      if touches.any Touch.choosesContainer then none else c.shown := by
  induction touches generalizing c with
  | nil => rfl
  | cons t touches ih =>
      rw [List.any_cons, Bool.or_eq_false_iff] at h
      rw [List.foldl_cons, ih h.2, shown_after_one h.1, List.any_cons]
      cases t.choosesContainer with
      | false => simp
      | true => simp

end CertChooser

/-! ## The chooser of a method -/

/-- TLS stays TLS, and its chooser goes its own way. -/
theorem exists_touch (m : Tls) (t : Touch) :
    ∃ m' : Tls, t.on (tls m) = tls m' ∧ m'.certChooser = m.certChooser.after t := by
  cases t with
  | loadSecrets a => exact ⟨_, rfl, rfl⟩
  | edit fs session e =>
      cases e with
      | clientCert path =>
          refine ⟨_, rfl, ?_⟩
          show (m.chooseClientCert path).certChooser = _
          cases hopen : m.clientCertOpen <;>
            simp [chooseClientCert, certChooser, CertChooser.after, hopen]
      | privateKey path =>
          refine ⟨_, rfl, ?_⟩
          show (m.choosePrivateKey fs path).2.certChooser = _
          unfold choosePrivateKey
          -- The format of the key decides on both sides.
          split
          next hformat => simp [certChooser, CertChooser.after, hformat]
          next hformat =>
            have hother : path.bind (Credential.keyFormat? fs) ≠ some .pkcs12 := hformat
            simp [certChooser, CertChooser.after, hother]
      | _ => exact ⟨_, rfl, rfl⟩

theorem exists_run (m : Tls) (touches : List Touch) :
    ∃ m' : Tls, touches.foldl Touch.on (tls m) = tls m' ∧
      m'.certChooser = touches.foldl CertChooser.after m.certChooser := by
  induction touches generalizing m with
  | nil => exact ⟨m, rfl, rfl⟩
  | cons t touches ih =>
      obtain ⟨m', htouch, hchooser⟩ := exists_touch m t
      obtain ⟨m'', hrun, hchooser'⟩ := ih m'
      refine ⟨m'', ?_, ?_⟩
      · rw [List.foldl_cons, htouch, hrun]
      · rw [List.foldl_cons, ← hchooser, hchooser']

/-! ## How a method begins -/

/-- The user certificate that a setting has beside a PKCS#12 key. -/
def stowed (a : Option Profile.Authentication) (phase : Phase) : Option Path := do
  let c := (← a).credentials phase
  if (← c.privateKey).format = .pkcs12 then c.clientCert.map (·.path) else none

/-- TLS as it is made, empty or from a setting, and the certificate stowed in the setting. -/
inductive Begun : Tls → Option Path → Prop where
  | new (phase : Phase) (policy : Secret.Policy) : Begun (.new phase policy) none
  | ofSetting (phase : Phase) (a : Option Profile.Authentication) (session : Session)
      (waivers : Waiver.Table) : Begun (.ofSetting phase a session waivers) (stowed a phase)

/-- The chooser is closed at the beginning if the setting has a PKCS#12 key, and then shows the
certificate that is stowed. -/
theorem Begun.certChooser_eq_closed_iff {c : Option Path} {x : Path} (h : Begun m₀ c) :
    m₀.certChooser = ⟨false, some x⟩ ↔ c = some x := by
  cases h with
  | new phase policy => simp [certChooser, Tls.new]
  | ofSetting phase a session waivers =>
      cases a with
      | none => simp [certChooser, Tls.ofSetting, Tls.new, stowed]
      | some a =>
          rw [Tls.ofSetting_some]
          cases hkey : (a.credentials phase).privateKey with
          | none => simp [certChooser, stowed, hkey]
          | some key =>
              obtain ⟨path, format⟩ := key
              cases format <;> simp [certChooser, stowed, hkey]

/-- **A PKCS#12 key is written with its own path as the user certificate**, so it is stowed. -/
theorem stowed_write (m : Tls) (fs : FileSystem) (session : Session) (a : Profile.Authentication)
    (waivers : Waiver.Table) {path : Path} (h : m.keyReference fs = some ⟨path, .pkcs12⟩) :
    stowed (some (m.write fs session (a, waivers)).1) m.phase = some path := by
  have hclient : m.clientReference fs = some ⟨path, .pkcs12⟩ := by rw [clientReference, h]
  simp [stowed, credentials_write, writeKey, h, hclient]

/-- **The user certificate beside a PKCS#12 key.** A closed chooser is empty, unless the method was
made from a setting that has a certificate beside a PKCS#12 key and no key was chosen since. And
nothing but a choice in the chooser or a PKCS#12 key that is chosen changes what it shows: such a
key leaves it empty until a certificate is chosen, any other leaves the certificate of the setting
in it. -/
theorem certificate_of_closed {c : Option Path} (h : Begun m₀ c) (touches : List Touch) :
    ∃ m : Tls, touches.foldl Touch.on (tls m₀) = tls m ∧
      (∀ x, m.clientCertOpen = false ∧ m.clientCert = some x ↔
        c = some x ∧ touches.any Touch.choosesKey = false) ∧
      (touches.any Touch.choosesCert = false → m.clientCert =
        if touches.any Touch.choosesContainer then none else m₀.clientCert) := by
  obtain ⟨m, hrun, hchooser⟩ := exists_run m₀ touches
  refine ⟨m, hrun, ?_, ?_⟩
  · intro x
    have hpair : m.clientCertOpen = false ∧ m.clientCert = some x ↔
        m.certChooser = ⟨false, some x⟩ := by
      rw [certChooser, CertChooser.mk.injEq]
    rw [hpair, hchooser, CertChooser.closed_after_iff, h.certChooser_eq_closed_iff]
  · intro hcert
    have hshown : m.certChooser.shown = _ := hchooser ▸ CertChooser.shown_after hcert
    exact hshown

/-! ### A PKCS#12 key that was saved, and is replaced -/

/-- A PKCS#12 key and a plain one. -/
def twoKeys : FileSystem :=
  ((FileSystem.blank []).put ["p12"] (.file [0x30, 0x82, 0x00, 0x03, 0x02, 0x01, 0x03])).put
    ["key"] (.file [0x30, 0x82, 0x00, 0x03, 0x02, 0x01, 0x00])

/-- An edit of a connection that was saved before. -/
def again : Session := ⟨"home", false, .agentOwned, true, .wireless⟩

def withContainer : Tls :=
  { Tls.new .outer .notSaved with identity := "me", privateKey := some "/p12" }

/-- What TLS with the PKCS#12 key writes. -/
def savedKey : Profile.Authentication := (withContainer.write twoKeys again ({}, {})).1

/-- TLS that is made from what was saved. -/
def reopenedKey : Tls := .ofSetting .outer (some savedKey) again {}

theorem begun_reopenedKey : Begun reopenedKey (some "/p12") := by
  have hkey : withContainer.keyReference twoKeys = some ⟨"/p12", .pkcs12⟩ := by cbv
  have hstowed : stowed (some savedKey) .outer = some "/p12" :=
    stowed_write withContainer twoKeys again {} {} hkey
  exact hstowed ▸ Begun.ofSetting .outer (some savedKey) again {}

/-- A saved PKCS#12 key is opened again: the chooser is closed and shows the key, whatever name is
entered. -/
theorem certificate_of_closed_reopenedKey : Begun reopenedKey (some "/p12") ∧
    ∃ m : Tls, [Touch.edit twoKeys again (.username "you")].foldl Touch.on (tls reopenedKey) =
        tls m ∧ m.clientCertOpen = false ∧ m.clientCert = some "/p12" := by
  obtain ⟨m, hrun, hclosed, -⟩ :=
    certificate_of_closed begun_reopenedKey [Touch.edit twoKeys again (.username "you")]
  exact ⟨begun_reopenedKey, m, hrun, (hclosed "/p12").2 ⟨rfl, rfl⟩⟩

/-- So a closed chooser need not be empty. The certificate is still in it when a key of another
format has taken the place of the first. -/
theorem closed_chooser_is_not_empty :
    reopenedKey.certChooser = ⟨false, some "/p12"⟩ ∧
      Credential.keyFormat? twoKeys "/key" = some .der ∧
      (reopenedKey.choosePrivateKey twoKeys (some "/key")).2.certChooser =
        ⟨true, some "/p12"⟩ := by
  have hclosed : reopenedKey.certChooser = ⟨false, some "/p12"⟩ :=
    begun_reopenedKey.certChooser_eq_closed_iff.2 rfl
  have hformat : Credential.keyFormat? twoKeys "/key" = some .der := by cbv
  refine ⟨hclosed, hformat, ?_⟩
  obtain ⟨m, hm, hafter⟩ := exists_touch reopenedKey (.edit twoKeys again (.privateKey "/key"))
  obtain rfl : (reopenedKey.choosePrivateKey twoKeys (some "/key")).2 = m :=
    AuthMethod.tls.inj hm
  rw [hafter, hclosed]
  simp [CertChooser.after, hformat]

end ConnectionSecurity.Method.Tls
