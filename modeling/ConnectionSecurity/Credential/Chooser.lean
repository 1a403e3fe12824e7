import ConnectionSecurity.Credential.Check

/-!
# What a file chooser shows

A chooser lists the files that may suit its purpose, judged by extension, size and a first look. It
also looks at a chosen key, to see whether it needs a password and whether it brings its certificate
along.
-/

namespace ConnectionSecurity.Credential

/-- The size that a file needs to hold a certificate or a key. -/
def sizeNeeded : Nat := 400

/-- Whether the extension of a path is one of those given, in any case. -/
def hasExtension (path : Path) (allowed : List String) : Bool :=
  match path.extension? with
  | some ext => allowed.any (Text.sameLetters ext)
  | none => false

/-- The extensions that are listed for a purpose. -/
def extensions : Purpose → List String
  | .privateKey => ["der", "pem", "p12"]
  | _ => ["der", "pem", "crt", "cer"]

/-- What the start of a file seems to hold. -/
def look? (fs : FileSystem) (path : Path) : Option Contents :=
  match readStart fs path with
  | .ok data => Contents.recognise? data
  | .error _ => none

/-- Whether what a file seems to hold may be listed for a purpose. -/
def mayHold (purpose : Purpose) (contents : Contents) : Bool :=
  match purpose with
  | .privateKey => contents.privateKey
  | _ => contents.certificate && contents.format != .pkcs12

/-- Whether a chooser lists a file. -/
def isListed (fs : FileSystem) (path : Path) (purpose : Purpose) : Bool :=
  hasExtension path (extensions purpose) &&
    (match fs.fileSize? path with
      | some size => sizeNeeded ≤ size
      | none => false) &&
    (match look? fs path with
      | some contents => mayHold purpose contents
      | none => false)

/-- Whether a file holds a private key that needs a password. -/
def holdsEncryptedKey (fs : FileSystem) (path : Path) : Bool :=
  match look? fs path with
  | some contents => contents.privateKey && contents.encrypted
  | none => false

/-- The format of the private key in a file. -/
def keyFormat? (fs : FileSystem) (path : Path) : Option Format :=
  ((look? fs path).filter (·.privateKey)).map (·.format)

/-- Whether a chooser for PAC files lists a file. -/
def isListedPac (fs : FileSystem) (path : Path) : Bool :=
  hasExtension path ["pac"] && (fs.fileSize? path).isSome

end ConnectionSecurity.Credential
