import ConnectionSecurity.Certificate
import ConnectionSecurity.Credential.Contents
import ConnectionSecurity.Pem

/-!
# Decoding a credential file

What a file seems to hold is decoded: certificates in full, keys and containers as trees of values,
since their insides may be encrypted. A block of text armour that the end of the data cuts off is
not counted.
-/

namespace ConnectionSecurity.Credential

/-- Why the content of a file cannot be decoded. -/
inductive DecodeError where
  /-- The armour of a block is broken. -/
  | armour
  | certificate
  /-- A key is not a sequence of values. -/
  | key
  /-- A container is not a sequence of values that begins with a number. -/
  | container
  | emptyContainer
  | containerVersion (found : Nat)
deriving DecidableEq, Repr

def DecodeError.message : DecodeError → String
  | armour => "PEM armour could not be decoded"
  | certificate => "certificate could not be parsed"
  | key => "private key is not valid ASN.1"
  | container => "PKCS#12 container is not valid ASN.1"
  | emptyContainer => "PKCS#12 container is not valid ASN.1: empty sequence"
  | containerVersion found => "PKCS#12 container has version " ++ toString found ++ ", expected 3"

/-- What decoding has found. -/
structure Decoded where
  certificates : Nat := 0
  privateKey : Bool := false
deriving DecidableEq, Repr

def keyLabels : List String :=
  ["RSA PRIVATE KEY", "DSA PRIVATE KEY", "EC PRIVATE KEY", "PRIVATE KEY", "ENCRYPTED PRIVATE KEY"]

def checkCertificate (data : Bytes) : Except DecodeError Unit :=
  if (Certificate.read? data).isSome then .ok () else .error .certificate

def checkKey (data : Bytes) : Except DecodeError Unit :=
  match Asn1.definiteElement? data with
  | some (value, _) => if value.sequence?.isSome then .ok () else .error .key
  | none => .error .key

/-- Check that a container is a sequence of values of which the first is the version three. -/
def checkContainer (data : Bytes) : Except DecodeError Unit :=
  match Asn1.element? Asn1.depthLimit data with
  | none => .error .container
  | some (value, _) =>
    match value.sequence? with
    | none => .error .container
    | some [] => .error .emptyContainer
    | some (version :: _) =>
      match version.natural? with
      | none => .error .container
      | some n => if n = 3 then .ok () else .error (.containerVersion n)

/-- A key whose block says how it is processed is encrypted in its armour; its content is no tree
of values then. -/
def isSealed (block : Pem.Block) : Bool := (block.headers.lookup "Proc-Type").isSome

/-- Decode one block. A block of another label holds nothing. -/
def decodeBlock (found : Decoded) (block : Pem.Block) : Except DecodeError Decoded := do
  if block.label == "CERTIFICATE" then
    checkCertificate block.content
    return { found with certificates := found.certificates + 1 }
  else if keyLabels.contains block.label then
    if !isSealed block then checkKey block.content
    return { found with privateKey := true }
  else return found

/-- Decode a file of which `contents` is known. -/
def decode (data : Bytes) (contents : Contents) : Except DecodeError Decoded :=
  match contents.format with
  | .pem =>
    match Pem.blocks? data with
    | none => .error .armour
    | some blocks => blocks.foldlM decodeBlock {}
  | .der =>
    if contents.certificate then (checkCertificate data).map fun _ => { certificates := 1 }
    else (checkKey data).map fun _ => { privateKey := contents.privateKey }
  | .pkcs12 => (checkContainer data).map fun _ => { certificates := 1, privateKey := true }

end ConnectionSecurity.Credential
