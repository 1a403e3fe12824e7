import ConnectionSecurity.Proofs.Method.SecretFlags
import ConnectionSecurity.Proofs.Security.Written

/-!
# The flags that a security writes

A profile has six secrets with flags: three in the setting of the network, three in the credentials
for 802.1x. A security asks for one of them (`Security.secretField`). Writing it merges the policy
of its control into the flags that the profile had there. The flags of the other secrets of the
credentials are kept, and all the rest is gone (`Security.secretFlags_write`). What was written once
is settled: writing the same secret under the same policy again leaves all flags as they are
(`Security.secretFlags_write_of_settled`).
-/

namespace ConnectionSecurity

open Secret Profile

/-! ## The secrets of a profile -/

/-- A secret of a profile. The four WEP keys share their flags. -/
inductive Profile.SecretField where
  | wepKey
  | psk
  | leapPassword
  | authentication (field : Authentication.SecretField)
deriving DecidableEq, Repr

namespace Profile

/-- The flags beside a secret, if there is the setting for them. -/
def secretFlags? (p : Profile) : SecretField → Option Flags
  | .wepKey => p.wirelessSecurity.map (·.wepKeyFlags)
  | .psk => p.wirelessSecurity.map (·.pskFlags)
  | .leapPassword => p.wirelessSecurity.map (·.leapPasswordFlags)
  | .authentication field => p.authentication.map (·.flags field)

/-- The flags beside a secret. Without the setting for them there are none. -/
def secretFlags (p : Profile) (field : SecretField) : Flags := (p.secretFlags? field).getD .none

/-- Whether writing a secret keeps the flags of another one. -/
def SecretField.keeps : SecretField → SecretField → Bool
  | authentication _, authentication _ => true
  | _, _ => false

/-- A policy is merged into the flags of a secret already, and those that writing the secret does
not keep are gone. -/
structure Settled (policy : Policy) (field : SecretField) (p : Profile) : Prop where
  merged : policy.applyTo (p.secretFlags field) = p.secretFlags field
  gone : ∀ other, other ≠ field → field.keeps other = false → p.secretFlags other = .none

end Profile

variable {fs : FileSystem} {session : Session} {p : Profile} {waivers : Waiver.Table}

namespace Security

/-- The secret that a security asks for. -/
def secretField : Security → SecretField
  | wep _ => .wepKey
  | personal _ => .psk
  | leap _ => .leapPassword
  | enterprise w => .authentication w.method.secretField

variable {s : Security}

/-! ## Writing -/

/-- What the credentials are built on has the flags of the earlier ones. -/
theorem Enterprise.flags_base (p : Profile) (session : Session)
    (field : Authentication.SecretField) :
    (Enterprise.base p session).flags field = p.secretFlags (.authentication field) := by
  have hrenewed : (Authentication.renewed p.authentication).flags field =
      p.secretFlags (.authentication field) := by
    cases hp : p.authentication with
    | none =>
        simp only [Profile.secretFlags, secretFlags?, hp]
        cases field with
        | password => rfl
        | keyPassword phase => cases phase <;> rfl
    | some a =>
        have hkept : (Authentication.renewed (some a)).flags = a.flags :=
          Authentication.flags_congr rfl rfl rfl
        simp only [Profile.secretFlags, secretFlags?, hp]
        exact congrFun hkept field
  unfold Enterprise.base
  split
  · exact (congrFun (Authentication.flags_congr rfl rfl rfl) field).trans hrenewed
  · exact hrenewed

/-- The credentials that are written: the policy is merged into the flags of the secret in use, and
the flags of the other two are as they were. -/
theorem Enterprise.secretFlags?_write (w : Enterprise) (field : Authentication.SecretField) :
    (w.write fs session p waivers).1.secretFlags? (.authentication field) =
      some (if field = w.method.secretField then
        w.method.secret.policy.applyTo (p.secretFlags (.authentication field))
      else p.secretFlags (.authentication field)) := by
  show Option.map _ _ = _
  rw [authentication_write, Option.map_some, written, AuthMethod.flags_write, flags_base]

/-- **What becomes of the flags when a security is written.** -/
theorem secretFlags_write (s : Security) (field : SecretField) :
    (s.write fs session p waivers).1.secretFlags field =
      if field = s.secretField then s.secret.policy.applyTo (p.secretFlags field)
      else if s.secretField.keeps field then p.secretFlags field else .none := by
  have hprior : ∀ flags : WirelessSecurity → Flags,
      p.wirelessSecurity.elim .none flags = (p.wirelessSecurity.map flags).getD .none := by
    intro flags
    cases p.wirelessSecurity <;> rfl
  cases s with
  | wep w =>
      simp only [Security.write, Wep.write_eq]
      cases field with
      | wepKey => exact congrArg w.control.policy.applyTo (hprior _)
      | _ => rfl
  | personal w =>
      have hmanagement : (w.management p.isAdhoc).wepKeyFlags = .none ∧
          (w.management p.isAdhoc).leapPasswordFlags = .none := by
        unfold Personal.management
        split
        · exact ⟨rfl, rfl⟩
        · split <;> exact ⟨rfl, rfl⟩
      simp only [Security.write, Personal.write_eq]
      cases field with
      | wepKey => exact hmanagement.1
      | psk => exact congrArg w.psk.policy.applyTo (hprior _)
      | leapPassword => exact hmanagement.2
      | authentication field => rfl
  | leap w =>
      simp only [Security.write, WirelessLeap.write_eq]
      cases field with
      | leapPassword => exact congrArg w.login.password.policy.applyTo (hprior _)
      | _ => rfl
  | enterprise w =>
      cases field with
      | authentication field =>
          show ((w.write fs session p waivers).1.secretFlags? _).getD _ = _
          rw [w.secretFlags?_write]
          simp [secretField, secret, SecretField.keeps]
      | _ =>
          simp only [Security.write, Enterprise.write_eq, Enterprise.secured]
          cases w.medium <;> rfl

/-- The secret of a security has its setting once the security is written. -/
theorem secretFlags?_write_self (s : Security) :
    (s.write fs session p waivers).1.secretFlags? s.secretField =
      some (s.secret.policy.applyTo (p.secretFlags s.secretField)) := by
  have hsome : ∃ flags,
      (s.write fs session p waivers).1.secretFlags? s.secretField = some flags := by
    cases s with
    | wep w =>
        simp only [Security.write, Wep.write_eq]
        exact ⟨_, rfl⟩
    | personal w =>
        simp only [Security.write, Personal.write_eq]
        exact ⟨_, rfl⟩
    | leap w =>
        simp only [Security.write, WirelessLeap.write_eq]
        exact ⟨_, rfl⟩
    | enterprise w => exact ⟨_, w.secretFlags?_write _⟩
  obtain ⟨flags, hflags⟩ := hsome
  have hself : (s.write fs session p waivers).1.secretFlags s.secretField = _ :=
    s.secretFlags_write _
  rw [if_pos rfl, Profile.secretFlags, hflags] at hself
  rw [hflags]
  exact congrArg some hself

/-! ## Writing again -/

/-- What was written is settled. -/
theorem settled_write (s : Security) :
    (s.write fs session p waivers).1.Settled s.secret.policy s.secretField := by
  refine ⟨?_, fun other hne hkeeps => ?_⟩
  · rw [secretFlags_write, if_pos rfl, Policy.applyTo_applyTo]
  · rw [secretFlags_write, if_neg hne, hkeeps]
    rfl

/-- **Writing a settled secret again** under its policy leaves all flags as they are. -/
theorem secretFlags_write_of_settled (h : p.Settled s.secret.policy s.secretField)
    (field : SecretField) :
    (s.write fs session p waivers).1.secretFlags field = p.secretFlags field := by
  rw [secretFlags_write]
  split
  next heq => rw [heq, h.merged]
  next hne =>
    split
    next => rfl
    next hkeeps => exact (h.gone field hne (Bool.eq_false_iff.2 hkeeps)).symm

/-! ## Reading -/

/-- Reading the secrets takes the policy from the flags beside the secret, if there are any. -/
theorem policy_loadSecrets (s : Security) (p : Profile) : (s.loadSecrets p).secret.policy =
    (p.secretFlags? s.secretField).elim s.secret.policy Policy.ofFlags := by
  cases s with
  | wep w =>
      simp only [loadSecrets, Wep.loadSecrets, secretField, secretFlags?]
      cases p.wirelessSecurity with
      | none => rfl
      | some setting =>
          simp only [secret]
          exact Control.policy_load ..
  | personal w =>
      simp only [loadSecrets, Personal.loadSecrets, secretField, secretFlags?]
      cases p.wirelessSecurity with
      | none => rfl
      | some setting => exact Control.policy_load ..
  | leap w =>
      simp only [loadSecrets, WirelessLeap.loadSecrets, secretField, secretFlags?]
      cases p.wirelessSecurity with
      | none => rfl
      | some setting => exact Control.policy_load ..
  | enterprise w =>
      simp only [loadSecrets, Enterprise.loadSecrets, secretField, secretFlags?]
      cases p.authentication with
      | none => rfl
      | some a => exact w.method.policy_loadSecrets a

theorem secretField_loadSecrets (s : Security) (p : Profile) :
    (s.loadSecrets p).secretField = s.secretField := by
  cases s with
  | enterprise w =>
      simp only [loadSecrets, Enterprise.loadSecrets, secretField]
      cases p.authentication with
      | none => rfl
      | some a => exact congrArg _ (w.method.secretField_loadSecrets a)
  | _ => rfl

end Security

end ConnectionSecurity
