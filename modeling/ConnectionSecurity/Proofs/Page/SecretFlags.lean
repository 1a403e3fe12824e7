import ConnectionSecurity.Proofs.Page.Reopen
import ConnectionSecurity.Proofs.Security.SecretFlags

/-!
# The flags of a saved secret

Saving a page merges the policy of its secret into the flags that the profile had beside this
secret, whatever these were (`Page.flags_of_save`). A page that is filled from the saved profile and
asks for the same secret is under the policy again. Saves of the same secret under the same policy
change no flags after the first one, whatever else is edited in between
(`Page.secretFlags_saveAll`).
-/

namespace ConnectionSecurity

open Secret Profile

namespace Page

variable {page : Page} {fs : FileSystem} {p : Profile} {s : Security} {report : Report}
  {field : SecretField} {policy : Policy}

/-! ## Saves in a row -/

/-- The page has a secret under a policy. -/
def Holds (page : Page) (field : SecretField) (policy : Policy) : Prop :=
  ∃ s, page.security = some s ∧ s.secretField = field ∧ s.secret.policy = policy

/-- The profile after pages were saved into it, one after the other. -/
def saveAll (saves : List (Page × FileSystem)) (p : Profile) : Profile :=
  saves.foldl (fun p save => (save.1.save save.2 p).profile) p

/-- Whether a save succeeds or not, flags that are settled stay as they are. -/
theorem secretFlags_save_of_settled (hpage : page.Holds field policy)
    (hp : p.Settled policy field) :
    (page.save fs p).profile.secretFlags = p.secretFlags := by
  obtain ⟨s, hs, rfl, rfl⟩ := hpage
  rw [profile_save]
  split
  next => rw [written_of_some hs, funext (Security.secretFlags_write_of_settled hp)]
  next => rfl

/-- **After the first save no other one changes any flags.** -/
theorem secretFlags_saveAll {saves : List (Page × FileSystem)}
    (hsaves : ∀ save ∈ saves, save.1.Holds field policy) (hp : p.Settled policy field) :
    (saveAll saves p).secretFlags = p.secretFlags := by
  induction saves generalizing p with
  | nil => rfl
  | cons save rest ih =>
      obtain ⟨hsave, hrest⟩ := List.forall_mem_cons.1 hsaves
      have hflags : (save.1.save save.2 p).profile.secretFlags = p.secretFlags :=
        secretFlags_save_of_settled hsave hp
      have hp' : (save.1.save save.2 p).profile.Settled policy field := by
        refine ⟨?_, ?_⟩
        · rw [hflags]
          exact hp.merged
        · rw [hflags]
          exact hp.gone
      exact (ih hrest hp').trans hflags

/-! ## One save -/

/-- A page that is filled from a profile is under the policy of the flags beside its secret. -/
theorem policy_load {flags : Flags} (hs : (page.load fs p).security = some s)
    (hflags : p.secretFlags? s.secretField = some flags) : s.secret.policy = .ofFlags flags := by
  obtain ⟨made, -, rfl⟩ := Option.map_eq_some_iff.1 hs
  rw [Security.secretField_loadSecrets] at hflags
  rw [Security.policy_loadSecrets, hflags]
  rfl

/-- A save that succeeds leaves flags beside the secret of the page. -/
theorem secretFlags?_save (hs : page.security = some s) (h : (page.save fs p).result = .ok report) :
    (page.save fs p).profile.secretFlags? s.secretField =
      some (s.secret.policy.applyTo (p.secretFlags s.secretField)) := by
  obtain ⟨-, hprofile, -⟩ := of_save_eq_ok h
  rw [hprofile, written_of_some hs, Security.secretFlags?_write_self]

/-- **A save merges the policy into the flags.** Take any page, any profile with whatever flags, and
any policy of the control of its secret, and let the save succeed. Then the profile has flags for
this secret in which the policy is merged into the flags from before, which are none if the setting
was missing; never are both storage flags set. Who reads the secret from these flags is under the
policy, and so is every page that is filled from the profile and asks for the same secret. For
802.1x the flags of the other secrets of the credentials are as they were, bit by bit. And however
many pages are saved afterwards which hold the same secret under the same policy, no flags change
any more. -/
theorem flags_of_save (page : Page) (fs : FileSystem) (p : Profile) (s : Security)
    (report : Report) (hs : page.security = some s)
    (h : (page.save fs p).result = .ok report) :
    let saved := (page.save fs p).profile
    ∃ flags, saved.secretFlags? s.secretField = some flags ∧
      s.secret.policy.Merged (p.secretFlags s.secretField) flags ∧
      flags.contains .storage = false ∧
      Policy.ofFlags flags = s.secret.policy ∧
      (∀ reader : Security, reader.secretField = s.secretField →
        (reader.loadSecrets saved).secret.policy = s.secret.policy) ∧
      (∀ (fresh : Page) fs' s', (fresh.load fs' saved).security = some s' →
        s'.secretField = s.secretField → s'.secret.policy = s.secret.policy) ∧
      (∀ w, s = .enterprise w → ∀ other, other ≠ w.method.secretField →
        saved.secretFlags? (.authentication other) = some (p.secretFlags (.authentication other))) ∧
      ∀ saves : List (Page × FileSystem),
        (∀ save ∈ saves, save.1.Holds s.secretField s.secret.policy) →
        (saveAll saves saved).secretFlags = saved.secretFlags := by
  intro saved
  obtain ⟨-, hprofile, -⟩ := of_save_eq_ok h
  have hsaved : saved = (s.write fs page.session p page.store.table).1 :=
    hprofile.trans (written_of_some hs fs p)
  have hmerged := s.secret.policy.merged_applyTo (p.secretFlags s.secretField)
  have hflags := secretFlags?_save hs h
  refine ⟨_, hflags, hmerged, hmerged.contains_storage, hmerged.ofFlags_eq, ?_, ?_, ?_, ?_⟩
  · intro reader hreader
    rw [Security.policy_loadSecrets, hreader, hflags]
    exact hmerged.ofFlags_eq
  · intro fresh fs' s' hs' hfield
    rw [← hfield] at hflags
    rw [policy_load hs' hflags, hfield]
    exact hmerged.ofFlags_eq
  · rintro w rfl other hother
    rw [hsaved]
    refine (w.secretFlags?_write other).trans ?_
    rw [if_neg hother]
  · intro saves hsaves
    refine secretFlags_saveAll hsaves ?_
    rw [hsaved]
    exact s.settled_write

/-- Credentials with flags of all sorts. -/
def flagged : Profile :=
  { home.secureWith (.ofKeyMgmt "wpa-eap") with
    authentication := some
      { passwordFlags := ⟨0x80000003⟩
        outer := { privateKeyPasswordFlags := ⟨0xFFFFFFFF⟩ }
        inner := { privateKeyPasswordFlags := ⟨0x12345678⟩ } } }

/-- 802.1x by PWD with a password that an agent keeps. -/
def entrust : List Action :=
  [.select .wpaEnterprise home, .edit (.blank []) (.selectMethod .pwd),
    .edit (.blank []) (.method (.username "me")),
    .edit (.blank []) (.method (.secret (.text "secret"))),
    .edit (.blank []) (.method (.secret (.policy .agentOwned)))]

/-- The page with the password is saved. Of the flags of the password one is taken away; those of
the other secrets stay. -/
theorem flags_of_save_entrust :
    let page := (Page.new homeSession .inMemory).run entrust
    let saved := (page.save (.blank []) flagged).profile
    (page.save (.blank []) flagged).result = .ok [] ∧
      saved.secretFlags? (.authentication .password) = some ⟨0x80000001⟩ ∧
      saved.secretFlags? (.authentication (.keyPassword .outer)) = some ⟨0xFFFFFFFF⟩ ∧
      saved.secretFlags? (.authentication (.keyPassword .inner)) = some ⟨0x12345678⟩ := by
  intro page saved
  have hresult : (page.save (.blank []) flagged).result = .ok [] := by cbv
  have hsecurity : page.security = some (.enterprise ⟨false, .wireless, .pwd,
      .password ⟨.pwd, .outer, ⟨"me", ⟨"secret", .agentOwned, false⟩⟩⟩⟩) := by cbv
  obtain ⟨flags, hflags, hmerged, -, -, -, -, hothers, -⟩ :=
    flags_of_save page (.blank []) flagged _ _ hsecurity hresult
  obtain rfl : flags = ⟨0x80000001⟩ :=
    hmerged.unique (Policy.merged_applyTo .agentOwned ⟨0x80000003⟩)
  exact ⟨hresult, hflags, hothers _ rfl (.keyPassword .outer) (by decide),
    hothers _ rfl (.keyPassword .inner) (by decide)⟩

end Page

end ConnectionSecurity
