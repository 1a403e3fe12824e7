import ConnectionSecurity.Session

/-!
# Security by one shared secret

WPA and WPA3 Personal: everybody on the network knows the same key. A key of 8 to 63 bytes is a
phrase; one of 64 bytes has to be hexadecimal.
-/

namespace ConnectionSecurity.Security

/-- Check a shared key. Its length is counted in bytes. -/
def checkPsk (psk : String) : Except Fault Unit :=
  let n := Bytes.sizeOfText psk
  if n < 8 ∨ 64 < n then .error (.passphraseLength n)
  else if n = 64 ∧ psk.toList.all Text.isHexDigit = false then .error .passphraseCharacters
  else .ok ()

/-- Security by a shared key. -/
structure Personal where
  /-- WPA3 in place of WPA. -/
  sae : Bool
  psk : Secret.Control
deriving DecidableEq, Repr

namespace Personal

/-- Filled from a profile, secrets apart. -/
def ofProfile (sae : Bool) (p : Profile) (session : Session) : Personal :=
  let control : Secret.Control := .empty session.defaultPolicy
  match p.wirelessSecurity with
  | some s => ⟨sae, control.applyFlags s.pskFlags⟩
  | none => ⟨sae, control⟩

/-- Check the key, unless it is asked for every time. -/
def validate (w : Personal) : Except Fault Report := do
  if w.psk.policy.keepsText then checkPsk w.psk.text
  return []

/-- The key management. A network without an access point knows only the first WPA. -/
def management (w : Personal) (adhoc : Bool) : Profile.WirelessSecurity :=
  if w.sae then .ofKeyMgmt "sae"
  else if adhoc then
    { keyMgmt := "wpa-none", proto := ["wpa"], pairwise := ["none"], group := ["tkip"] }
  else .ofKeyMgmt "wpa-psk"

/-- Write the key management, the key and its flags. -/
def write (w : Personal) (p : Profile) : Profile :=
  let prior := match p.wirelessSecurity with
    | some s => s.pskFlags
    | none => .none
  { p.secureWith
    { w.management p.isAdhoc with
      psk := w.psk.writtenText
      pskFlags := w.psk.policy.applyTo prior } with
    authentication := none }

def loadSecrets (w : Personal) (p : Profile) : Personal :=
  match p.wirelessSecurity with
  | some s => { w with psk := w.psk.load s.psk s.pskFlags }
  | none => w

end Personal

end ConnectionSecurity.Security
