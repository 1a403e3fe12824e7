import ConnectionSecurity.Proofs.Secret.Control
import ConnectionSecurity.Proofs.Security.Shape

/-!
# What a switch takes along

Whoever chooses another method keeps what was typed into the old one: the user name always, the
secret and whether it is revealed as far as the policy of the new one keeps a text. That policy is
the usual one of the session, not the one of the old method (`AuthMethod.Carries`). The new control
is the old one on which this policy was chosen (`AuthMethod.secret_into`).

There are four ways to switch, inside a tunnel and outside, with the method alone and with what it
stands in. All of them succeed for every entry of the menu in question, and make the same method
(`AuthMethod.carries_of_switch`).
-/

namespace ConnectionSecurity

open Method

variable {session : Session}

namespace Secret.Control

/-- Typing the text of a control into an empty one is choosing the policy of the empty one. -/
theorem reveal_setText_empty (c : Control) (policy : Policy) :
    ((empty policy).setText c.text).reveal c.revealed = c.setPolicy policy := by
  cases policy <;> simp [empty, setText, setPolicy, reveal, Policy.keepsText]

end Secret.Control

namespace AuthMethod

variable {old made : AuthMethod}

/-- A method has what was typed into another one, as far as its policy keeps it, and its policy is
the usual one of the session. -/
structure Carries (session : Session) (old new : AuthMethod) : Prop where
  username : new.username = old.username
  policy : new.secret.policy = session.defaultPolicy
  kept : session.defaultPolicy.keepsText = true →
    new.secret.text = old.secret.text ∧ new.secret.revealed = old.secret.revealed
  dropped : session.defaultPolicy.keepsText = false →
    new.secret.text = "" ∧ new.secret.revealed = false

/-! ## A method that was just made -/

/-- The secret of a method that is made without a setting is empty. -/
theorem secret_make_none (k : MethodKind) (session : Session) (waivers : Waiver.Table) :
    (k.make none session waivers).secret = .empty session.defaultPolicy := by
  cases k <;> rfl

theorem secret_ofSetting_none (kind : PasswordKind) (slot : Slot) (session : Session) :
    (password (.ofSetting kind slot none session)).secret = .empty session.defaultPolicy := rfl

/-- What is typed into a method with an empty secret: the control is that of the other method, on
which the policy of the new one was chosen. -/
theorem secret_into {policy : Secret.Policy} (hmade : made.secret = .empty policy) :
    ((Typed.of old).into made).secret = old.secret.setPolicy policy := by
  rw [Typed.into, secret_onSecret, secret_setUsername, hmade]
  exact Secret.Control.reveal_setText_empty _ _

theorem username_into (typed : Typed) (m : AuthMethod) :
    (typed.into m).username = typed.username := by
  rw [Typed.into, username_onSecret, username_setUsername]

/-- A method that was just made carries what is typed into it. -/
theorem carries_into (hmade : made.secret = .empty session.defaultPolicy) :
    Carries session old ((Typed.of old).into made) := by
  have hsecret : ((Typed.of old).into made).secret = _ := secret_into hmade
  refine ⟨username_into _ _, ?_, fun hkeeps => ?_, fun hkeeps => ?_⟩
  · rw [hsecret, Secret.Control.policy_setPolicy]
  · rw [hsecret, Secret.Control.setPolicy, if_pos hkeeps]
    exact ⟨rfl, rfl⟩
  · rw [hsecret]
    apply Secret.Control.sound_setPolicy
    rw [Secret.Control.policy_setPolicy, hkeeps]

/-! ## Inside a tunnel -/

/-- The method of an entry inside a tunnel, with what was typed into another one. -/
theorem switchInner_eq (tunnel : TunnelKind) (old : AuthMethod) {entry : InnerKind}
    (hentry : entry ∈ tunnel.menu) (session : Session) :
    switchInner tunnel old entry session = .ok ((Typed.of old).into
      (password (.ofSetting entry.method (tunnel.slot entry) none session))) := by
  rw [switchInner, offerInner, if_pos (TunnelKind.mem_menu_iff.1 hentry)]
  rfl

/-- It is the password method of the entry in its slot. Of the old method it has the user name, and
the control with the usual policy chosen. -/
theorem into_password (old : AuthMethod) (tunnel : TunnelKind) (entry : InnerKind)
    (session : Session) :
    (Typed.of old).into (password (.ofSetting entry.method (tunnel.slot entry) none session)) =
      password ⟨entry.method, tunnel.slot entry,
        ⟨old.username, old.secret.setPolicy session.defaultPolicy⟩⟩ := by
  show password ⟨entry.method, (tunnel.slot entry).granted entry.method, ⟨old.username,
    ((Secret.Control.empty _).setText old.secret.text).reveal old.secret.revealed⟩⟩ = _
  rw [TunnelKind.granted_slot, Secret.Control.reveal_setText_empty]

/-! ## Every switch -/

/-- **A switch keeps what was typed.** Take any method and any session. Choosing an entry of the
menu of a tunnel makes the password method of the entry, in the slot that the tunnel prescribes;
choosing an entry of the menu of the medium makes a method that the entry stands for. In both cases
the new method has the user name of the old one and is under the usual policy of the session, and it
has the secret of the old one and reveals it like the old one if this policy keeps a text, and else
no secret. A tunnel puts the method inside and changes nothing else but its menu entry; security by
802.1x that has another entry chosen takes the method with the entry and changes nothing else. -/
theorem carries_of_switch (old : AuthMethod) (session : Session) :
    (∀ (tunnel : TunnelKind) (entry : InnerKind), entry ∈ tunnel.menu → ∃ login,
      let new := password ⟨entry.method, tunnel.slot entry, login⟩
      switchInner tunnel old entry session = .ok new ∧ Carries session old new ∧
        ∀ shell : Shell, shell.kind = tunnel →
          shell.selectInner old entry session = .ok ({ shell with innerKind := entry }, new)) ∧
    ∀ (waivers : Waiver.Table) (k : MethodKind), k ∈ MethodKind.menu session.medium → ∃ new,
      Method.switch old k session waivers = .ok new ∧ new.Fits k ∧ new.name = k.name ∧
        Carries session old new ∧
        ∀ w : Security.Enterprise, w.method = old → k ≠ w.methodKind →
          w.selectMethod k session waivers = .ok { w with methodKind := k, method := new } := by
  constructor
  · intro tunnel entry hentry
    refine ⟨⟨old.username, old.secret.setPolicy session.defaultPolicy⟩, ?_⟩
    rw [← into_password old tunnel entry session]
    refine ⟨switchInner_eq tunnel old hentry session,
      carries_into (secret_ofSetting_none entry.method _ session), ?_⟩
    rintro shell rfl
    rw [selectInner_eq, if_pos (TunnelKind.mem_menu_iff.1 hentry)]
  · intro waivers k hk
    have hruns := MethodKind.mem_menu_iff.1 hk
    have hswitch : Method.switch old k session waivers =
        .ok ((Typed.of old).into (k.make none session waivers)) := by
      rw [Method.switch, MethodKind.offer, if_pos hruns]
      rfl
    obtain ⟨hfits, -⟩ := fits_switch hswitch
    refine ⟨_, hswitch, hfits, hfits.name_eq, carries_into (secret_make_none k session waivers), ?_⟩
    rintro w rfl hne
    rw [Security.Enterprise.selectMethod_eq, if_neg hne, if_pos hruns]

/-- A user name and a password that an agent keeps, revealed. -/
def revealedPwd : AuthMethod :=
  .password ⟨.pwd, .outer, ⟨"me", { text := "secret", policy := .agentOwned, revealed := true }⟩⟩

/-- The session of a connection whose secrets are kept in the profile. -/
def plainSession : Session := ⟨"uuid", false, .agentOwned, true, .wireless⟩

/-- The password is taken into a tunnel, where it is stored in the profile, and outside to TLS. -/
theorem carries_of_switch_revealedPwd :
    InnerKind.gtc ∈ TunnelKind.ttls.menu ∧ MethodKind.tls ∈ MethodKind.menu .wireless ∧
      (∃ new, switchInner .ttls revealedPwd .gtc plainSession = .ok new ∧
        new.username = "me" ∧ new.secret = ⟨"secret", .stored, true⟩) ∧
      ∃ new, Method.switch revealedPwd .tls plainSession {} = .ok new ∧
        new.username = "me" ∧ new.secret = ⟨"secret", .stored, true⟩ := by
  have hsecret : ∀ new, Carries plainSession revealedPwd new →
      new.username = "me" ∧ new.secret = ⟨"secret", .stored, true⟩ := by
    intro new h
    obtain ⟨htext, hrevealed⟩ := h.kept rfl
    have hpolicy := h.policy
    refine ⟨h.username, ?_⟩
    cases hnew : new.secret with
    | mk text policy revealed =>
        rw [hnew] at htext hpolicy hrevealed
        obtain rfl : text = "secret" := htext
        obtain rfl : policy = .stored := hpolicy
        obtain rfl : revealed = true := hrevealed
        rfl
  have hgtc : InnerKind.gtc ∈ TunnelKind.ttls.menu := by decide
  have htls : MethodKind.tls ∈ MethodKind.menu .wireless := by decide
  obtain ⟨hinner, houter⟩ := carries_of_switch revealedPwd plainSession
  obtain ⟨login, hswitch, hcarries, -⟩ := hinner .ttls .gtc hgtc
  obtain ⟨new, hswitch', -, -, hcarries', -⟩ := houter {} .tls htls
  exact ⟨hgtc, htls, ⟨_, hswitch, hsecret _ hcarries⟩, new, hswitch', hsecret _ hcarries'⟩

end AuthMethod

end ConnectionSecurity
