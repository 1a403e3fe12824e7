import ConnectionSecurity.Session

/-!
# WEP

Four keys share a policy. One of them is shown in a control, where it can be edited; the others are
stashed. Showing another key puts the text of the control into the stash and takes the other one
out, so the keys together are a table of four texts with a cursor.
-/

namespace ConnectionSecurity.Security

/-- How a station authenticates with WEP. -/
inductive WepAuth where
  | openSystem
  | shared
deriving DecidableEq, Repr

namespace WepAuth

def value : WepAuth → String
  | openSystem => "open"
  | shared => "shared"

def label : WepAuth → String
  | openSystem => "Open System"
  | shared => "Shared Key"

end WepAuth

/-! ## Keys -/

/-- Check a WEP key. A key is 5 or 13 visible characters or blanks, or 10 or 26 hexadecimal digits;
a passphrase has 1 to 64 characters. -/
def checkWepKey (key : String) (type : Profile.WepKeyType) : Except Fault Unit :=
  let n := key.length
  match type with
  | .passphrase => if 1 ≤ n ∧ n ≤ 64 then .ok () else .error (.passphraseLength n)
  | .key =>
    let checkAll (p : Char → Bool) : Except Fault Unit :=
      if key.toList.all p then .ok () else .error .keyCharacters
    if n = 5 ∨ n = 13 then checkAll fun c => Text.isGraphic c || c == ' '
    else if n = 10 ∨ n = 26 then checkAll Text.isHexDigit
    else .error (.keyLength n)

/-! ## The wrapper -/

/-- Security by WEP keys. -/
structure Wep where
  keyType : Profile.WepKeyType
  auth : WepAuth := .openSystem
  /-- The network had no access point when the wrapper was made. -/
  adhoc : Bool
  /-- The number of the key that is shown. -/
  index : Fin Profile.wepKeyCount := 0
  /-- The texts of the keys that are not shown. -/
  stash : Vector String Profile.wepKeyCount := Vector.replicate Profile.wepKeyCount ""
  control : Secret.Control
deriving DecidableEq, Repr

namespace Wep

/-- Filled from a profile, secrets apart. Settings of another key management do not count. -/
def ofProfile (type : Profile.WepKeyType) (p : Profile) (session : Session) : Wep :=
  let w : Wep :=
    { keyType := type, adhoc := p.isAdhoc, control := .empty session.defaultPolicy }
  match p.wirelessSecurity with
  | none => w
  | some s =>
    if s.keyMgmt = "none" then
      { w with
        index := if h : s.wepTxKeyIndex.toNat < Profile.wepKeyCount then ⟨_, h⟩ else 0
        auth := if !w.adhoc && s.authAlg == some "shared" then .shared else .openSystem
        control := w.control.applyFlags s.wepKeyFlags }
    else w

/-- The way to authenticate. Without an access point it is open. -/
def effectiveAuth (w : Wep) : WepAuth := if w.adhoc then .openSystem else w.auth

/-- Choose the way to authenticate. Nothing happens without an access point. -/
def chooseAuth (w : Wep) (auth : WepAuth) : Wep := if w.adhoc then w else { w with auth }

/-- Show the key with a number. -/
def showKey (w : Wep) (index : Fin Profile.wepKeyCount) : Wep :=
  let stash := w.stash.set w.index w.control.text
  { w with
    index
    control := w.control.setText stash[index]
    stash := stash.set index "" }

/-- Show the key with a number, if there is one. The number is any natural number, not a machine word:
the refusal counts from one, and the number in it is never out of range. -/
def selectKey (w : Wep) (index : Nat) : Except Refusal Wep :=
  if h : index < Profile.wepKeyCount then .ok (w.showKey ⟨index, h⟩)
  else .error ⟨"key " ++ toString (index + 1), "WEP key index"⟩

/-- The text of the key with a number. -/
def key? (w : Wep) (index : Nat) : Option String :=
  if index = w.index then some w.control.text else w.stash[index]?

/-- Check the key that is shown, unless it is asked for every time. -/
def validate (w : Wep) : Except Fault Report := do
  if w.control.policy.keepsText then checkWepKey w.control.text w.keyType
  return []

/-- The keys that are written. An empty one is left out, and so are all if they are not kept. -/
def writtenKeys (w : Wep) : Vector (Option String) Profile.wepKeyCount :=
  Vector.ofFn fun i =>
    if w.control.policy.keepsText then (w.key? i).filter (!·.isEmpty) else none

/-- Write the key management, the keys and their flags. -/
def write (w : Wep) (p : Profile) : Profile :=
  let prior := match p.wirelessSecurity with
    | some s => s.wepKeyFlags
    | none => .none
  let auth := if p.isAdhoc then .openSystem else w.effectiveAuth
  { p.secureWith
    { keyMgmt := "none"
      authAlg := some auth.value
      wepKeys := w.writtenKeys
      wepTxKeyIndex := UInt32.ofNat w.index
      wepKeyType := some w.keyType
      wepKeyFlags := w.control.policy.applyTo prior } with
    authentication := none }

def loadSecrets (w : Wep) (p : Profile) : Wep :=
  match p.wirelessSecurity with
  | none => w
  | some s =>
    let keys := s.wepKeys.map (·.getD "")
    { w with
      stash := keys.set w.index ""
      control := w.control.load (some keys[w.index]) s.wepKeyFlags }

end Wep

end ConnectionSecurity.Security
