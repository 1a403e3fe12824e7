import ConnectionSecurity.Profile.Basic
import ConnectionSecurity.Toml.Printer
import ConnectionSecurity.Toml.Record

/-!
# Profiles as documents

Each setting is a record whose fields have names in a fixed order. A field that has the value it
would be given when it is missing is left out, so reading gives back what was written. The mode of
the network and the medium are always written.
-/

namespace ConnectionSecurity.Profile

open Toml

/-! ## Fields -/

/-- A text, written if it is there. -/
def textField (s : Option String) : Option Value := s.map .text

/-- A list of texts, written unless it is empty. -/
def textsField (ss : List String) : Option Value :=
  if ss.isEmpty then none else some (.array (ss.map .text))

/-- Flags, written as a text unless none is set. -/
def flagsField (f : Secret.Flags) : Option Value :=
  if f.isEmpty then none else some (.text f.text)

/-- A word, written unless it is zero. -/
def wordField (n : UInt32) : Option Value := if n == 0 then none else some (.integer n.toNat)

/-- A truth value, written if it is true. -/
def trueField (b : Bool) : Option Value := if b then some (.boolean true) else none

/-- The flags that a text value names. -/
def flags? (v : Value) : Option Secret.Flags := v.text?.bind Secret.Flags.ofText?

/-! ## Choices -/

def mediumName : Medium → String
  | .wireless => "802-11-wireless"
  | .wired => "802-3-ethernet"

def medium? : String → Option Medium
  | "802-11-wireless" => some .wireless
  | "802-3-ethernet" => some .wired
  | _ => none

def Mode.name : Mode → String
  | infrastructure => "infrastructure"
  | adhoc => "adhoc"
  | ap => "ap"

def Mode.ofName? : String → Option Mode
  | "infrastructure" => some infrastructure
  | "adhoc" => some adhoc
  | "ap" => some ap
  | _ => none

def WepKeyType.name : WepKeyType → String
  | key => "key"
  | passphrase => "passphrase"

def WepKeyType.ofName? : String → Option WepKeyType
  | "key" => some key
  | "passphrase" => some passphrase
  | _ => none

/-! ## Settings -/

def Connection.toValue (c : Connection) : Value :=
  .ofFields [("id", some (.text c.id)), ("uuid", some (.text c.uuid)),
    ("type", some (.text (mediumName c.medium)))]

def Connection.ofValue? (v : Value) : Option Connection := do
  let r ← Fields.of? v
  return {
    id := ← r.required 0 "id" Value.text?
    uuid := ← r.required 1 "uuid" Value.text?
    medium := ← r.withDefault 2 "type" (Value.choice? medium?) .wireless }

def Wireless.toValue (w : Wireless) : Value :=
  .ofFields [("ssid", textField w.ssid), ("mode", some (.text w.mode.name)),
    ("security", textField w.security)]

def Wireless.ofValue? (v : Value) : Option Wireless := do
  let r ← Fields.of? v
  return {
    ssid := ← r.optional 0 "ssid" Value.text?
    mode := ← r.withDefault 1 "mode" (Value.choice? Mode.ofName?) .infrastructure
    security := ← r.optional 2 "security" Value.text? }

def WirelessSecurity.toValue (s : WirelessSecurity) : Value :=
  .ofFields [
    ("key-mgmt", some (.text s.keyMgmt)),
    ("auth-alg", textField s.authAlg),
    ("proto", textsField s.proto),
    ("pairwise", textsField s.pairwise),
    ("group", textsField s.group),
    ("wep-key0", textField (s.wepKey 0)),
    ("wep-key1", textField (s.wepKey 1)),
    ("wep-key2", textField (s.wepKey 2)),
    ("wep-key3", textField (s.wepKey 3)),
    ("wep-tx-keyidx", wordField s.wepTxKeyIndex),
    ("wep-key-type", s.wepKeyType.map fun t => .text t.name),
    ("wep-key-flags", flagsField s.wepKeyFlags),
    ("psk", textField s.psk),
    ("psk-flags", flagsField s.pskFlags),
    ("leap-username", textField s.leapUsername),
    ("leap-password", textField s.leapPassword),
    ("leap-password-flags", flagsField s.leapPasswordFlags)]

def WirelessSecurity.ofValue? (v : Value) : Option WirelessSecurity := do
  let r ← Fields.of? v
  return {
    keyMgmt := ← r.required 0 "key-mgmt" Value.text?
    authAlg := ← r.optional 1 "auth-alg" Value.text?
    proto := ← r.withDefault 2 "proto" Value.texts? []
    pairwise := ← r.withDefault 3 "pairwise" Value.texts? []
    group := ← r.withDefault 4 "group" Value.texts? []
    wepKeys := #v[
      ← r.optional 5 "wep-key0" Value.text?,
      ← r.optional 6 "wep-key1" Value.text?,
      ← r.optional 7 "wep-key2" Value.text?,
      ← r.optional 8 "wep-key3" Value.text?]
    wepTxKeyIndex := ← r.withDefault 9 "wep-tx-keyidx" Value.word? 0
    wepKeyType := ← r.optional 10 "wep-key-type" (Value.choice? WepKeyType.ofName?)
    wepKeyFlags := ← r.withDefault 11 "wep-key-flags" flags? .none
    psk := ← r.optional 12 "psk" Value.text?
    pskFlags := ← r.withDefault 13 "psk-flags" flags? .none
    leapUsername := ← r.optional 14 "leap-username" Value.text?
    leapPassword := ← r.optional 15 "leap-password" Value.text?
    leapPasswordFlags := ← r.withDefault 16 "leap-password-flags" flags? .none }

def FileRef.toValue (f : FileRef) : Value :=
  .ofFields [("path", some (.text f.path)), ("format", some (.text f.format.name))]

def FileRef.ofValue? (v : Value) : Option FileRef := do
  let r ← Fields.of? v
  return {
    path := ← r.required 0 "path" Value.text?
    format := ← r.required 1 "format" (Value.choice? Credential.Format.ofName?) }

def Authentication.toValue (a : Authentication) : Value :=
  .ofFields [
    ("eap", textsField a.eap),
    ("identity", textField a.identity),
    ("anonymous-identity", textField a.anonymousIdentity),
    ("domain-suffix-match", textField a.domainSuffixMatch),
    ("ca-cert", a.outer.caCert.map FileRef.toValue),
    ("system-ca-certs", trueField a.systemCaCerts),
    ("client-cert", a.outer.clientCert.map FileRef.toValue),
    ("private-key", a.outer.privateKey.map FileRef.toValue),
    ("private-key-password", textField a.outer.privateKeyPassword),
    ("private-key-password-flags", flagsField a.outer.privateKeyPasswordFlags),
    ("password", textField a.password),
    ("password-flags", flagsField a.passwordFlags),
    ("phase1-peapver", textField a.peapVersion),
    ("phase1-fast-provisioning", textField a.fastProvisioning),
    ("pac-file", textField a.pacFile),
    ("phase2-auth", textField a.innerAuth),
    ("phase2-autheap", textField a.innerAuthEap),
    ("phase2-ca-cert", a.inner.caCert.map FileRef.toValue),
    ("phase2-client-cert", a.inner.clientCert.map FileRef.toValue),
    ("phase2-private-key", a.inner.privateKey.map FileRef.toValue),
    ("phase2-private-key-password", textField a.inner.privateKeyPassword),
    ("phase2-private-key-password-flags", flagsField a.inner.privateKeyPasswordFlags)]

def Authentication.ofValue? (v : Value) : Option Authentication := do
  let r ← Fields.of? v
  return {
    eap := ← r.withDefault 0 "eap" Value.texts? []
    identity := ← r.optional 1 "identity" Value.text?
    anonymousIdentity := ← r.optional 2 "anonymous-identity" Value.text?
    domainSuffixMatch := ← r.optional 3 "domain-suffix-match" Value.text?
    systemCaCerts := ← r.withDefault 5 "system-ca-certs" Value.boolean? false
    outer := {
      caCert := ← r.optional 4 "ca-cert" FileRef.ofValue?
      clientCert := ← r.optional 6 "client-cert" FileRef.ofValue?
      privateKey := ← r.optional 7 "private-key" FileRef.ofValue?
      privateKeyPassword := ← r.optional 8 "private-key-password" Value.text?
      privateKeyPasswordFlags := ← r.withDefault 9 "private-key-password-flags" flags? .none }
    password := ← r.optional 10 "password" Value.text?
    passwordFlags := ← r.withDefault 11 "password-flags" flags? .none
    peapVersion := ← r.optional 12 "phase1-peapver" Value.text?
    fastProvisioning := ← r.optional 13 "phase1-fast-provisioning" Value.text?
    pacFile := ← r.optional 14 "pac-file" Value.text?
    innerAuth := ← r.optional 15 "phase2-auth" Value.text?
    innerAuthEap := ← r.optional 16 "phase2-autheap" Value.text?
    inner := {
      caCert := ← r.optional 17 "phase2-ca-cert" FileRef.ofValue?
      clientCert := ← r.optional 18 "phase2-client-cert" FileRef.ofValue?
      privateKey := ← r.optional 19 "phase2-private-key" FileRef.ofValue?
      privateKeyPassword := ← r.optional 20 "phase2-private-key-password" Value.text?
      privateKeyPasswordFlags :=
        ← r.withDefault 21 "phase2-private-key-password-flags" flags? .none } }

/-! ## Profiles -/

def settings (p : Profile) : List (String × Option Value) :=
  [("connection", some p.connection.toValue),
    ("802-11-wireless", p.wireless.map Wireless.toValue),
    (wirelessSecurityName, p.wirelessSecurity.map WirelessSecurity.toValue),
    ("802-1x", p.authentication.map Authentication.toValue)]

def toEntries (p : Profile) : List (String × Value) :=
  p.settings.filterMap fun (name, v) => v.map fun v => (name, v)

def ofValue? (v : Value) : Option Profile := do
  let r ← Fields.of? v
  return {
    connection := ← r.required 0 "connection" Connection.ofValue?
    wireless := ← r.optional 1 "802-11-wireless" Wireless.ofValue?
    wirelessSecurity := ← r.optional 2 wirelessSecurityName WirelessSecurity.ofValue?
    authentication := ← r.optional 3 "802-1x" Authentication.ofValue? }

def print (p : Profile) : String := Toml.print p.toEntries

def parse? (text : String) : Option Profile := (Toml.read? text).bind fun es => ofValue? (.table es)

end ConnectionSecurity.Profile
