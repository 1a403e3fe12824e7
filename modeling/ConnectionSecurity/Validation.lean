import ConnectionSecurity.Credential.Basic
import ConnectionSecurity.Path

/-!
# Outcomes of a validation

A validation ends at the first fault, which blocks saving, or in a report of warnings, which do not.
A menu that lacks an entry refuses it.
-/

namespace ConnectionSecurity

/-! ## Faults -/

/-- Why what the user entered cannot be saved. -/
inductive Fault where
  | missingField (field : Field)
  /-- A file is not what it was chosen for. -/
  | invalidFormat (purpose : Credential.Purpose) (path : Path) (reason : String)
  | missingFile (field : Field)
  | unreadableFile (field : Field) (path : Path) (details : String)
  | passwordRequired (field : Field)
  | keyLength (length : Nat)
  | keyCharacters
  | passphraseLength (length : Nat)
  | passphraseCharacters
  | missingSsid
  | adhocIncompatible (kind : String)
deriving DecidableEq, Repr

def Fault.message : Fault → String
  | missingField field => field.label ++ " is required"
  | invalidFormat purpose path reason =>
    "invalid " ++ purpose.label ++ " '" ++ path ++ "': " ++ reason
  | missingFile field => "no " ++ field.label ++ " selected"
  | unreadableFile field path details =>
    "cannot read " ++ field.label ++ " '" ++ path ++ "': " ++ details
  | passwordRequired field => field.label ++ " is required"
  | keyLength length => "WEP key length " ++ toString length ++ " is invalid"
  | keyCharacters => "WEP key contains invalid characters"
  | passphraseLength length => "passphrase length " ++ toString length ++ " is invalid"
  | passphraseCharacters => "64-character pre-shared key must be hexadecimal"
  | missingSsid => "SSID is required"
  | adhocIncompatible kind => kind ++ " is not available in Ad-Hoc mode"

def Fault.field : Fault → Field
  | missingField field => field
  | invalidFormat purpose _ _ => purpose.field
  | missingFile field => field
  | unreadableFile field _ _ => field
  | passwordRequired field => field
  | keyLength _ => .wepKey
  | keyCharacters => .wepKey
  | passphraseLength _ => .psk
  | passphraseCharacters => .psk
  | missingSsid => .ssid
  | adhocIncompatible _ => .security

/-! ## Warnings -/

/-- What a user should know, but what does not block saving. -/
inductive Warning where
  | unencryptedPrivateKey (path : Path)
  /-- No CA certificate is chosen and its check is not waived. -/
  | missingCaCertificate (phase : Phase)
deriving DecidableEq, Repr

def Warning.message : Warning → String
  | unencryptedPrivateKey path => "private key '" ++ path ++ "' is not password protected"
  | missingCaCertificate .outer => "no CA certificate chosen"
  | missingCaCertificate .inner => "no inner CA certificate chosen"

/-- The warnings of a validation without a fault, in the order they came up. -/
abbrev Report := List Warning

/-! ## Refusals -/

/-- A menu does not offer an entry. -/
structure Refusal where
  choice : String
  menu : String
deriving DecidableEq, Repr

def Refusal.message (r : Refusal) : String := r.choice ++ " is not offered by " ++ r.menu

end ConnectionSecurity
