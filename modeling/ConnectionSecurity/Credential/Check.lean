import ConnectionSecurity.Credential.Decoding
import ConnectionSecurity.FileSystem.Operations
import ConnectionSecurity.Secret.Control
import ConnectionSecurity.Validation

/-!
# Checking a chosen file

`check` says whether a file can be used for a purpose: it has to be there, to be readable, to seem
to hold what the purpose needs, to decode, and to hold it then. A key needs its password as well.
Without a choice a CA certificate is simply absent; the other purposes need a file.
-/

namespace ConnectionSecurity.Credential

/-- A file that can be used. -/
structure Accepted where
  /-- The absolute path. -/
  path : Path
  format : Format
  /-- The key needs a password. A container always does. -/
  encrypted : Bool
deriving DecidableEq, Repr

/-- Whether an accepted file is a key that anybody can open. -/
def Accepted.isOpenKey (file : Accepted) (purpose : Purpose) : Bool :=
  purpose == .privateKey && !file.encrypted

/-- The first bytes of a file. -/
def readStart (fs : FileSystem) (path : Path) : Except IoError Bytes :=
  (fs.read path).map (·.take readLimit)

/-- The chosen path, unless it is empty. -/
def chosen? (path : Option Path) : Option Path := path.filter (!·.isEmpty)

/-- Why what a file seems to hold does not suit a purpose. -/
def mismatch? (purpose : Purpose) (contents : Contents) : Option String :=
  match purpose with
  | .privateKey => if contents.privateKey then none else some "no private key found"
  | _ =>
    if contents.format == .pkcs12 then
      some "PKCS#12 containers are only accepted as private keys"
    else if contents.certificate then none
    else some "no X.509 certificate found"

/-- Why what was decoded does not suit a purpose. -/
def shortfall? (purpose : Purpose) (decoded : Decoded) : Option String :=
  match purpose with
  | .privateKey =>
    if decoded.privateKey then none else some "no complete private key could be decoded"
  | _ =>
    if decoded.certificates = 0 then some "no complete certificate could be decoded" else none

/-- Judge the first bytes of a file for a purpose. -/
def judge (purpose : Purpose) (data : Bytes) : Except String Contents :=
  match Contents.recognise? data with
  | none => .error "not a DER, PEM or PKCS#12 file"
  | some contents =>
    match mismatch? purpose contents with
    | some reason => .error reason
    | none =>
      match decode data contents with
      | .error e => .error e.message
      | .ok decoded =>
        match shortfall? purpose decoded with
        | some reason => .error reason
        | none => .ok contents

/-- The absolute path and the first bytes of a regular file, or why it cannot be read. -/
def open? (fs : FileSystem) (path : Path) : Except String (Path × Bytes) := do
  let absolute ← (fs.canonicalPath path).mapError (·.message)
  match ← (fs.nodeAt absolute).mapError (·.message) with
  | .file _ =>
    let data ← (readStart fs absolute).mapError (·.message)
    return (absolute, data)
  | _ => throw "not a regular file"

def checkFile (fs : FileSystem) (path : Path) (purpose : Purpose) : Except Fault Accepted := do
  let (absolute, data) ← (open? fs path).mapError (.unreadableFile purpose.field path)
  let contents ← (judge purpose data).mapError (.invalidFormat purpose absolute)
  return ⟨absolute, contents.format, contents.encrypted⟩

/-- Check the choice for a purpose. A password is checked last. -/
def check (fs : FileSystem) (path : Option Path) (purpose : Purpose)
    (password : Option Secret.Control) : Except Fault (Option Accepted) :=
  match chosen? path with
  | none => if purpose = .ca then .ok none else .error (.missingFile purpose.field)
  | some path => do
    let file ← checkFile fs path purpose
    match password with
    | some control =>
      if control.isSatisfied then return some file
      else throw (.passwordRequired .privateKeyPassword)
    | none => return some file

end ConnectionSecurity.Credential
