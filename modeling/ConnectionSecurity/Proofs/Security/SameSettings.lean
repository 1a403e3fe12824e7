import ConnectionSecurity.Proofs.Method.SameSettings
import ConnectionSecurity.Proofs.Security.Reopen

/-!
# The same settings, for any security

What a user would call the same settings of a security. The WEP keys that are not shown count only
if their policy keeps them, and the way to authenticate with WEP counts as far as the network
heeds it.
-/

namespace ConnectionSecurity

open Profile

variable {fs : FileSystem} {row : Waiver.Row} {report : Report}

/-- The same type, number, way to authenticate, policy, and texts as far as they are kept. -/
structure Security.Wep.SameSettings (old new : Wep) : Prop where
  keyType : new.keyType = old.keyType
  index : new.index = old.index
  auth : new.effectiveAuth = old.effectiveAuth
  policy : new.control.policy = old.control.policy
  keys : old.control.policy ≠ .notSaved → ∀ i, new.key? i = old.key? i

/-- The same kind of method with the same settings. -/
structure Security.Enterprise.SameSettings (fs : FileSystem) (old new : Enterprise) : Prop where
  dynamicWep : new.dynamicWep = old.dynamicWep
  medium : new.medium = old.medium
  methodKind : new.methodKind = old.methodKind
  method : old.method.SameSettings fs new.method

/-- The same kind of security with the same settings. -/
def Security.SameSettings (fs : FileSystem) : Security → Security → Prop
  | wep old, wep new => old.SameSettings new
  | personal old, personal new => new.sae = old.sae ∧ old.psk.SameSecret new.psk
  | enterprise old, enterprise new => old.SameSettings fs new
  | leap old, leap new => old.login.SameSettings new.login
  | _, _ => False

namespace Security

variable {s : Security}

theorem SameSettings.tunnelsTls {old new : Security} (h : old.SameSettings fs new) :
    new.tunnelsTls = old.tunnelsTls := by
  cases old with
  | enterprise w =>
      cases new with
      | enterprise w' => exact AuthMethod.SameSettings.tunnelsTls h.method
      | _ => exact h.elim
  | _ =>
      cases new with
      | enterprise w' => exact h.elim
      | _ => rfl

/-- A fit security has the same settings once it is read back. -/
theorem sameSettings_reopened (h : s.validate fs = .ok report) :
    s.SameSettings fs (s.reopened fs row) := by
  cases s with
  | wep w =>
      refine ⟨rfl, rfl, Wep.effectiveAuth_reopened, rfl, fun hpolicy i => ?_⟩
      refine Wep.key?_reopened ?_ i
      cases hp : w.control.policy with
      | notSaved => exact absurd hp hpolicy
      | _ => rfl
  | personal w => exact ⟨rfl, rfl, rfl⟩
  | leap w => exact ⟨rfl, rfl, rfl⟩
  | enterprise w => exact ⟨rfl, rfl, rfl, AuthMethod.sameSettings_reopened h⟩

end Security

end ConnectionSecurity
