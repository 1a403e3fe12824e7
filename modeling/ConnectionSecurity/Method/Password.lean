import ConnectionSecurity.Session

/-!
# Methods with a user name and a password

Seven methods ask for a user name and a password. Such a method runs on its own or inside a tunnel,
there either directly or as EAP, and the slot of the profile that its name is written to says which.
LEAP asks for the same two but runs only on its own.
-/

namespace ConnectionSecurity.Method

/-! ## Kinds and slots -/

/-- The methods with a user name and a password. -/
inductive PasswordKind where
  | pap
  | chap
  | mschap
  | mschapv2
  | md5
  | gtc
  | pwd
deriving DecidableEq, Repr

namespace PasswordKind

def all : List PasswordKind := [pap, chap, mschap, mschapv2, md5, gtc, pwd]

def name : PasswordKind → String
  | pap => "pap"
  | chap => "chap"
  | mschap => "mschap"
  | mschapv2 => "mschapv2"
  | md5 => "md5"
  | gtc => "gtc"
  | pwd => "pwd"

def label : PasswordKind → String
  | pap => "PAP"
  | chap => "CHAP"
  | mschap => "MSCHAP"
  | mschapv2 => "MSCHAPv2"
  | md5 => "MD5"
  | gtc => "GTC"
  | pwd => "PWD"

def ofName? (name : String) : Option PasswordKind := all.find? fun k => Text.sameLetters k.name name

/-- Whether the method can run as EAP inside a tunnel. -/
def runsAsEap : PasswordKind → Bool
  | mschapv2 | md5 | gtc => true
  | _ => false

end PasswordKind

/-- Where in a profile the name of a method is written. -/
inductive Slot where
  /-- In the list of outer methods. -/
  | outer
  /-- As the method inside a tunnel. -/
  | inner
  /-- As the method inside a tunnel that runs as EAP. -/
  | innerEap
deriving DecidableEq, Repr

namespace Slot

/-- The slot that a kind gets when it asks for this one. -/
def granted (slot : Slot) (kind : PasswordKind) : Slot :=
  if slot = .innerEap ∧ kind.runsAsEap = false then .inner else slot

/-- Write the name of a method into its slot. A method inside a tunnel clears the other slot. -/
def write (slot : Slot) (name : String) (a : Profile.Authentication) : Profile.Authentication :=
  match slot with
  | .outer => { a with eap := [name] }
  | .inner => { a with innerAuth := some name, innerAuthEap := none }
  | .innerEap => { a with innerAuthEap := some name, innerAuth := none }

end Slot

/-! ## User name and password -/

/-- A user name and the control of its password. -/
structure Login where
  username : String := ""
  password : Secret.Control
deriving DecidableEq, Repr

namespace Login

def empty (policy : Secret.Policy) : Login := { password := .empty policy }

/-- Filled with the identity and the policy of the password, if there is a setting. -/
def ofSetting (a : Option Profile.Authentication) (policy : Secret.Policy) : Login :=
  match a with
  | none => empty policy
  | some a =>
    { username := a.identity.getD "", password := (empty policy).password.applyFlags a.passwordFlags }

/-- There has to be a user name, and a password unless it is asked for every time. -/
def validate (l : Login) : Except Fault Report :=
  if l.username.isEmpty then .error (.missingField .username)
  else if l.password.isSatisfied then .ok []
  else .error (.missingField .password)

/-- Write the identity, the flags of the password and the password. -/
def write (l : Login) (a : Profile.Authentication) : Profile.Authentication :=
  { a with
    identity := some l.username
    passwordFlags := l.password.policy.applyTo a.passwordFlags
    password := l.password.writtenText }

def loadSecrets (l : Login) (a : Profile.Authentication) : Login :=
  { l with password := l.password.load a.password a.passwordFlags }

end Login

/-! ## The methods -/

/-- A method with a user name and a password. -/
structure Password where
  kind : PasswordKind
  slot : Slot
  login : Login
deriving DecidableEq, Repr

namespace Password

def new (kind : PasswordKind) (slot : Slot) (policy : Secret.Policy) : Password :=
  ⟨kind, slot.granted kind, .empty policy⟩

def ofSetting (kind : PasswordKind) (slot : Slot) (a : Option Profile.Authentication)
    (session : Session) : Password :=
  ⟨kind, slot.granted kind, .ofSetting a session.defaultPolicy⟩

/-- Write the name of the method, the identity and the password. -/
def write (m : Password) (a : Profile.Authentication) : Profile.Authentication :=
  m.login.write (m.slot.write m.kind.name a)

end Password

/-- LEAP as a method of 802.1x. -/
structure Leap where
  login : Login
deriving DecidableEq, Repr

namespace Leap

def name : String := "leap"

def new (policy : Secret.Policy) : Leap := ⟨.empty policy⟩

def ofSetting (a : Option Profile.Authentication) (session : Session) : Leap :=
  ⟨.ofSetting a session.defaultPolicy⟩

/-- Write the name of the method, the identity and the password. -/
def write (m : Leap) (a : Profile.Authentication) : Profile.Authentication :=
  m.login.write (Slot.outer.write name a)

end Leap

end ConnectionSecurity.Method
