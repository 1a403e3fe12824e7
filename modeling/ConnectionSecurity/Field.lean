/-!
# Fields of the editor

The places a problem can point at, so that the editor can put its focus there.
-/

namespace ConnectionSecurity

/-- A field of the editor. -/
inductive Field where
  | identity
  | anonymousIdentity
  | username
  | password
  | caCert
  | clientCert
  | privateKey
  | privateKeyPassword
  | pacFile
  | wepKey
  | psk
  | ssid
  | security
deriving DecidableEq, Repr

def Field.label : Field → String
  | identity => "identity"
  | anonymousIdentity => "anonymous identity"
  | username => "username"
  | password => "password"
  | caCert => "CA certificate"
  | clientCert => "user certificate"
  | privateKey => "private key"
  | privateKeyPassword => "private key password"
  | pacFile => "PAC file"
  | wepKey => "WEP key"
  | psk => "password"
  | ssid => "SSID"
  | security => "security"

end ConnectionSecurity
