import ConnectionSecurity.Profile.Basic

/-!
# An edit session

The facts about an edit that every part of the editor needs: which connection is edited, over which
medium, and what is usual for the secrets of a new one.
-/

namespace ConnectionSecurity

/-- What is usual for secrets. -/
structure SecretDefaults where
  /-- The policy of the secrets of a new connection. -/
  policy : Secret.Policy := .agentOwned
  /-- Whether a new connection also trusts the certificates of the system. -/
  systemCaCerts : Bool := true
deriving DecidableEq, Repr, Inhabited

/-- The facts about an edit. -/
structure Session where
  uuid : String
  /-- The profile has never been saved. -/
  isNew : Bool
  /-- The policy of the secrets of a new connection. -/
  newPolicy : Secret.Policy
  systemCaCerts : Bool
  medium : Medium
deriving DecidableEq, Repr

namespace Session

/-- The session that edits a profile. -/
def forProfile (p : Profile) (defaults : SecretDefaults) (isNew : Bool) : Session where
  uuid := p.uuid
  isNew
  newPolicy := defaults.policy
  systemCaCerts := defaults.systemCaCerts
  medium := p.connection.medium

/-- The policy of a secret without stored flags. -/
def defaultPolicy (s : Session) : Secret.Policy := if s.isNew then s.newPolicy else .stored

end Session

end ConnectionSecurity
