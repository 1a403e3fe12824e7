import ConnectionSecurity.Proofs.Method.Fit
import ConnectionSecurity.Proofs.Page.Order
import ConnectionSecurity.Proofs.Page.SecretFlags
import ConnectionSecurity.Proofs.Security.StartingPolicy

/-!
# The policy of a new connection

The secrets of a connection that was never saved start under a policy of their own. An action that
makes the control of a secret (`Page.Remakes`) puts it under this policy, unless a profile is loaded
that has the setting for the secret: then the flags beside it count, even if none of them is set
(`Page.Coherent.policy_of_remakes`). As long as nothing makes the control anew or chooses a policy,
it stays as it is (`Page.Coherent.storage_run`). So a save writes the policy that the secret started
under (`Page.starts_under`).
-/

namespace ConnectionSecurity

open Method Secret Profile

variable {session : Session} {p : Profile}

/-- No flag is set beside any secret. -/
def Profile.Unflagged (p : Profile) : Prop :=
  ∀ field flags, p.secretFlags? field = some flags → flags = .none

namespace Page

variable {page : Page} {a : Action} {s : Security} {field : SecretField} {policy : Policy}

/-! ## One action -/

/-- The action makes the control of a secret: it loads a profile, chooses a type of security, a
method, or what runs inside a tunnel. Choosing what is chosen already makes nothing, but for what
runs inside a tunnel. -/
inductive Remakes (page : Page) : Action → Prop
  | load (fs : FileSystem) (p : Profile) : Remakes page (.load fs p)
  | select (kind : SecurityKind) (p : Profile) (hmem : kind ∈ page.menu)
      (hnew : kind = page.kind → page.state = .uninitialized) : Remakes page (.select kind p)
  | edit (fs : FileSystem) (s : Security) (e : Security.Edit) (hs : page.security = some s)
      (h : s.Remakes page.session e) : Remakes page (.edit fs e)

/-- The user says under which policy the secret is, or has it read from a profile. -/
def Action.choosesPolicy : Action → Bool
  | edit _ e => e.choosesPolicy
  | loadSecrets _ => true
  | _ => false

/-- The policy that a secret of a new connection starts under. If a profile without flags is loaded
that has the setting for the secret, it is stored in the profile. -/
def Action.startingPolicy (session : Session) (field : SecretField) : Action → Policy
  | load _ p => if (p.secretFlags? field).isSome then .stored else session.newPolicy
  | _ => session.newPolicy

/-- **What makes the control of a secret** puts it under the policy that it is to start under. -/
theorem Coherent.policy_of_remakes (h : page.Coherent session) (hnew : session.isNew = true)
    (ha : page.Remakes a) (hload : ∀ fs p, a = .load fs p → p.Unflagged)
    (hs : (page.act a).security = some s) :
    s.secret.policy = a.startingPolicy session s.secretField := by
  obtain ⟨rfl, -⟩ := h
  have hdefault : page.session.defaultPolicy = page.session.newPolicy := if_pos hnew
  cases ha with
  | load fs p =>
      obtain ⟨made, hmade, rfl⟩ := Option.map_eq_some_iff.1 hs
      rw [Security.secretField_loadSecrets, Security.policy_loadSecrets]
      cases hflags : p.secretFlags? made.secretField with
      | none =>
          simp only [Action.startingPolicy, hflags]
          exact (Security.policy_ofKind? hmade hflags).trans hdefault
      | some flags =>
          simp only [Action.startingPolicy, hflags]
          rw [hload fs p rfl _ _ hflags]
          rfl
  | select kind p hmem hfresh =>
      rw [act_select, if_neg] at hs
      · refine (Security.policy_ofKind? hs ?_).trans hdefault
        cases s.secretField <;> rfl
      · rintro (hnot | ⟨hkind, hstate⟩)
        · simp [hmem] at hnot
        · exact hstate (hfresh hkind)
  | edit fs old e hold hremakes =>
      have hedit : (page.edit fs e).2.security = some s := hs
      unfold Page.edit at hedit
      rw [hold] at hedit
      obtain rfl := Option.some.inj hedit
      exact (Security.policy_of_remakes hremakes).trans hdefault

/-- **An action that chooses no policy and makes no control** leaves the secret of a page and its
policy as they are. -/
theorem Coherent.storage_act (h : page.Coherent session) (ha : a.choosesPolicy = false)
    (hremakes : ¬page.Remakes a) :
    (page.act a).security.map (·.storage) = page.security.map (·.storage) := by
  obtain ⟨rfl, hwell⟩ := h
  cases a with
  | load fs p => exact absurd (.load fs p) hremakes
  | select kind p =>
      rw [act_select]
      split
      next => rfl
      next hmade =>
        obtain ⟨hmem, hfresh⟩ := not_or.1 hmade
        refine absurd (.select kind p (by simpa using hmem) fun hkind => ?_) hremakes
        exact not_not.1 fun hstate => hfresh ⟨hkind, hstate⟩
  | touch => exact congrArg _ page.same_touch.2.2
  | edit fs e =>
      show (page.edit fs e).2.security.map _ = _
      unfold Page.edit
      cases hs : page.security with
      | none => simp only [hs]
      | some s =>
          obtain ⟨adhoc, hwell⟩ := hwell s hs
          have hedit : ¬s.Remakes page.session e := fun he => hremakes (.edit fs s e hs he)
          exact congrArg some (Security.storage_edit hwell ha hedit)
  | loadSecrets p => cases ha
  | validate fs p => exact congrArg _ (page.same_validate fs p).2.2
  | save fs p => exact congrArg _ (page.same_save fs p).2.2
  | waivers table => rfl

/-! ## A run -/

/-- Nothing in a run makes a control anew or chooses a policy. -/
def Untouched (page : Page) : List Action → Prop
  | [] => True
  | a :: rest => a.choosesPolicy = false ∧ ¬page.Remakes a ∧ (page.act a).Untouched rest

/-- A secret that is left untouched stays the same, under the same policy. -/
theorem Coherent.storage_run (h : page.Coherent session) {actions : List Action}
    (hactions : page.Untouched actions) :
    (page.run actions).security.map (·.storage) = page.security.map (·.storage) := by
  induction actions generalizing page with
  | nil => rfl
  | cons a rest ih =>
      obtain ⟨ha, hremakes, hrest⟩ := hactions
      exact (ih (h.act a) hrest).trans (h.storage_act ha hremakes)

theorem holds_iff :
    page.Holds field policy ↔ page.security.map (·.storage) = some (field, policy) := by
  rw [Option.map_eq_some_iff]
  exact exists_congr fun s => and_congr_right fun _ => Prod.mk_inj.symm

/-! ## A save -/

/-- The credentials that a new connection is saved with trust the certificates of the system as it
is usual. -/
theorem systemCaCerts_save {fs : FileSystem} {report : Report} {auth : Authentication}
    (hnew : page.session.isNew = true) (h : (page.save fs p).result = .ok report)
    (hauth : (page.save fs p).profile.authentication = some auth) :
    auth.systemCaCerts = page.session.systemCaCerts := by
  obtain ⟨-, hprofile, -⟩ := of_save_eq_ok h
  rw [hprofile] at hauth
  cases hs : page.security with
  | none =>
      rw [written_of_none hs] at hauth
      cases hauth
  | some s =>
      rw [written_of_some hs] at hauth
      cases s with
      | enterprise w =>
          obtain rfl := Option.some.inj (Security.Enterprise.authentication_write.symm.trans hauth)
          refine (AuthMethod.systemCaCerts_write w.method _).trans ?_
          simp only [Security.Enterprise.base, if_pos hnew]
      | wep w => simp [Security.write, Security.Wep.write_eq, securedBy] at hauth
      | personal w => simp [Security.write, Security.Personal.write_eq, securedBy] at hauth
      | leap w => simp [Security.write, Security.WirelessLeap.write_eq, securedBy] at hauth

/-- **A secret of a new connection starts under the policy for new ones.** Take a new connection,
any policy for the secrets of new ones, any run, and then an action that makes the control of a
secret: a load of a profile without flags, or the choice of a type of security, a method, or what
runs inside a tunnel. The secret is under the policy for new ones, unless the action is a load that
finds the setting for the secret; then it is stored in the profile, which is what flags say that are
not set. It stays under this policy in every further run that neither makes the control anew nor
chooses a policy. Every save that succeeds then merges the policy into the flags of the secret, and
the credentials for 802.1x, if there are any, trust the certificates of the system as it is
usual. -/
theorem starts_under (session : Session) (hnew : session.isNew = true) (store : Waiver.Store)
    (before : List Action) (a : Action) :
    let page := (Page.new session store).run before
    let made := page.act a
    page.Remakes a → (∀ fs p, a = .load fs p → p.Unflagged) →
      ∀ s, made.security = some s →
        s.secret.policy = a.startingPolicy session s.secretField ∧
        ∀ after, made.Untouched after →
          let final := made.run after
          final.Holds s.secretField s.secret.policy ∧
          ∀ fs q report, (final.save fs q).result = .ok report →
            (∃ flags, (final.save fs q).profile.secretFlags? s.secretField = some flags ∧
              s.secret.policy.Merged (q.secretFlags s.secretField) flags) ∧
            ∀ auth, (final.save fs q).profile.authentication = some auth →
              auth.systemCaCerts = session.systemCaCerts := by
  intro page made ha hload s hs
  have hcoherent : page.Coherent session := coherent_run session store before
  have hmade : made.Coherent session := hcoherent.act a
  refine ⟨hcoherent.policy_of_remakes hnew ha hload hs, fun after hafter => ?_⟩
  intro final
  have hholds : final.Holds s.secretField s.secret.policy := by
    rw [holds_iff, hmade.storage_run hafter, hs]
    rfl
  refine ⟨hholds, fun fs q report h => ⟨?_, fun auth hauth => ?_⟩⟩
  · obtain ⟨s', hs', hfield, hpolicy⟩ := hholds
    have hflags := secretFlags?_save hs' h
    rw [hfield, hpolicy] at hflags
    exact ⟨_, hflags, Policy.merged_applyTo _ _⟩
  · have hfinal : final.Coherent session :=
      run_keeps (fun _ a _ h => h.act a) (fun _ _ => trivial) hmade
    have hsession := hfinal.session_eq
    rw [← hsession] at hnew ⊢
    exact systemCaCerts_save hnew h hauth

/-- An edit of a connection that was never saved. -/
def newSession : Session := ⟨"uuid", true, .agentOwned, true, .wireless⟩

/-- A shared key is typed into a page of a new connection, and saved for an agent. -/
theorem starts_under_agentOwned :
    let page := (Page.new newSession .inMemory).run [.load (.blank []) home]
    let made := page.act (.select .wpaPsk home)
    let final := made.run [.edit (.blank []) (.secret (.text "secret phrase"))]
    made.Holds .psk .agentOwned ∧ final.Holds .psk .agentOwned ∧
      (final.save (.blank []) home).result = .ok [] ∧
      (final.save (.blank []) home).profile.secretFlags? .psk = some .agentOwned := by
  intro page made final
  have hs : made.security = some (.personal ⟨false, .empty .agentOwned⟩) := by cbv
  have hkind : page.kind = .none := by cbv
  have hmenu : page.menu = SecurityKind.menu .wireless := by cbv
  have hmakes : page.Remakes (.select .wpaPsk home) := by
    refine .select .wpaPsk home ?_ fun heq => ?_
    · rw [hmenu]
      decide
    · rw [hkind] at heq
      cases heq
  have huntouched : made.Untouched [.edit (.blank []) (.secret (.text "secret phrase"))] := by
    refine ⟨rfl, ?_, trivial⟩
    intro h
    cases h with
    | edit fs s e hs h => cases h
  have hresult : (final.save (.blank []) home).result = .ok [] := by cbv
  obtain ⟨hpolicy, hafter⟩ := starts_under newSession rfl .inMemory [.load (.blank []) home]
    (.select .wpaPsk home) hmakes (fun _ _ h => by cases h) _ hs
  obtain ⟨hholds, hsave⟩ := hafter _ huntouched
  obtain ⟨⟨flags, hflags, hmerged⟩, -⟩ := hsave _ _ _ hresult
  obtain rfl : flags = .agentOwned := hmerged.unique (Policy.merged_applyTo .agentOwned .none)
  exact ⟨⟨_, hs, rfl, hpolicy⟩, hholds, hresult, hflags⟩

/-- The shared key of a profile without flags is stored in the profile, even if the connection is
new and an agent should keep the secrets of new ones. A save sets no flag. -/
theorem starts_stored :
    let page := (Page.new newSession .inMemory).load (.blank []) keyed
    newSession.isNew = true ∧ newSession.newPolicy = .agentOwned ∧ keyed.Unflagged ∧
      page.security.map (·.secret) = some ⟨"secret phrase", .stored, false⟩ ∧
      (page.save (.blank []) keyed).result = .ok [] ∧
      (page.save (.blank []) keyed).profile.secretFlags? .psk = some .none := by
  refine ⟨rfl, rfl, ?_, ?_, ?_, ?_⟩
  · intro field flags hflags
    cases field <;> cases hflags <;> rfl
  · cbv
  · cbv
  · cbv

end Page

end ConnectionSecurity
