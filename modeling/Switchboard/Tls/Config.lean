import Switchboard.Config.Settings
import Switchboard.OsError
import Switchboard.FileSystem
import Switchboard.Text.Utf8
/-!
# TLS configuration

Protocol versions, the errors of setting TLS up, and the checks a configuration passes when it is
built; certificates, keys and the context's own checks belong to the TLS library, a parameter here.
Application protocols travel as length-prefixed entries, and a server picks the first offered one
it accepts.
-/
namespace Switchboard.Tls

/-- A TLS protocol version. -/
inductive Version where
  | tls10
  | tls11
  | tls12
  | tls13
  deriving DecidableEq, Repr, Ord

/-- Why TLS could not be set up. -/
inductive TlsError where
  | library
  | io (e : OsError)
  | invalidVersion (text : String)
  | invalidConfig (text : String)
  | certificate (text : String)
  | handshakeFailed (text : String)
  deriving Repr, DecidableEq

def TlsError.message : TlsError → String
  | .library => "OpenSSL error"
  | .io e => "I/O error: " ++ e.message
  | .invalidVersion s => "Invalid TLS version: " ++ s
  | .invalidConfig s => "Invalid configuration: " ++ s
  | .certificate s => "Certificate error: " ++ s
  | .handshakeFailed s => "Handshake failed: " ++ s

namespace Version

def rank : Version → Nat
  | .tls10 => 0
  | .tls11 => 1
  | .tls12 => 2
  | .tls13 => 3

def name : Version → String
  | .tls10 => "TLSv1.0"
  | .tls11 => "TLSv1.1"
  | .tls12 => "TLSv1.2"
  | .tls13 => "TLSv1.3"

/-- A character as Unicode upper-casing leaves it for these names: ASCII letters go up, and the
long s becomes `S`; other characters cannot become a letter of a version name. -/
def upper (c : Char) : Char :=
  if c == 'ſ' then 'S' else if 'a' ≤ c && c ≤ 'z' then Char.ofNat (c.toNat - 32) else c

def parse (s : String) : Except TlsError Version :=
  match String.ofList (s.toList.map upper) with
  | "TLSV1.0" | "TLS1.0" | "TLSV1" | "TLS1" => .ok .tls10
  | "TLSV1.1" | "TLS1.1" => .ok .tls11
  | "TLSV1.2" | "TLS1.2" => .ok .tls12
  | "TLSV1.3" | "TLS1.3" => .ok .tls13
  | _ => .error (.invalidVersion s)

def parse? : Option String → Except TlsError (Option Version)
  | some s => (parse s).map some
  | none => .ok none

end Version

def checkRange : Option Version → Option Version → Except TlsError Unit
  | some lo, some hi =>
    if hi.rank < lo.rank then .error (.invalidConfig s!"minimum version {lo.name} above maximum {hi.name}")
    else .ok ()
  | _, _ => .ok ()

/-- What a certificate tells: subject, issuer and alternative names. -/
structure CertInfo where
  subject : String
  issuer : String
  altNames : List String
  deriving Repr, DecidableEq

/-- The functions of the TLS library that building a configuration calls: certificates and keys
are read from PEM text, failing with the library's own text, and `useIdentity` installs both and
checks that they belong together. -/
class TlsLibrary where
  /-- A fresh self-signed certificate and key for a common name, as the certificate reads back. -/
  selfSigned : String → Except TlsError CertInfo
  certificateFromPem : List UInt8 → Except String CertInfo
  privateKeyFromPem : List UInt8 → Except String Unit
  useIdentity : List UInt8 → List UInt8 → Except TlsError Unit
  /-- Loads trust anchors from a file of the host; none when the library aborts on the path. -/
  setCaFile : FileSystem → String → Option (Except TlsError Unit)
  setAlpnProtos : List UInt8 → Except TlsError Unit

/-- A configuration ready for connections. -/
structure TlsConfig where
  isServer : Bool
  servername : Option String := none
  minVersion : Option Version := none
  maxVersion : Option Version := none
  alpn : List String := []
  identity : Option CertInfo := none

/-- The options of a client configuration. -/
structure ClientBuilder where
  minVersion : Option Version := none
  maxVersion : Option Version := none
  alpn : List String := []
  servername : Option String := none
  verifyPeer : Bool := false
  caFile : Option String := none

/-- Application protocols in the wire format: each protocol's length in one byte, then its
bytes. The first protocol longer than 255 bytes cannot be written and is named. -/
def alpnWire : List String → Except TlsError (List UInt8)
  | [] => .ok []
  | p :: ps =>
    if 255 < (utf8 p).length then .error (.invalidConfig ("ALPN protocol too long: " ++ p))
    else (alpnWire ps).map fun rest => (utf8 p).length.toUInt8 :: utf8 p ++ rest

/-- The protocol a server picks from a client's offers in the wire format. A cursor reads the
entries in order and picks the first one the server accepts; it stops, picking none, at an entry
whose length runs past the end of the list. -/
def selectProtocol (accepted : List (List UInt8)) (offered : List UInt8) : Option (List UInt8) :=
  scan 0
where
  scan (pos : Nat) : Option (List UInt8) :=
    if h : pos < offered.length then
      let len := offered[pos].toNat
      if offered.length < pos + 1 + len then none
      else
        let candidate := (offered.drop (pos + 1)).take len
        if accepted.any (· == candidate) then some candidate else scan (pos + 1 + len)
    else none
  termination_by offered.length - pos
  decreasing_by omega

/-- The protocol a server configuration picks from a client's offers: its selection callback over
the bytes of its own protocols. A configuration without protocols has no callback and picks
none. -/
def TlsConfig.selectAlpn (c : TlsConfig) (offered : List UInt8) : Option (List UInt8) :=
  selectProtocol (c.alpn.map utf8) offered

/-- What building a configuration assumes of the library: the self-signed certificate for
`localhost` names it as subject and issuer, with `localhost` and `127.0.0.1` among its alternative
names, and a client may offer any protocols none of which is empty. -/
structure TlsLibrary.Lawful [TlsLibrary] : Prop where
  localhost : ∃ info, TlsLibrary.selfSigned "localhost" = .ok info ∧ info.subject = "localhost" ∧
    info.issuer = "localhost" ∧ "DNS:localhost" ∈ info.altNames ∧ "IP:127.0.0.1" ∈ info.altNames
  offers : ∀ ps w, (∀ p ∈ ps, p ≠ "") → alpnWire ps = .ok w → TlsLibrary.setAlpnProtos w = .ok ()

section Library

variable [TlsLibrary]

/-- Builds a client configuration: the versions are checked, then the trust file is loaded and the
protocols are set when there are any. None when the library aborts. -/
def ClientBuilder.build (b : ClientBuilder) (files : FileSystem) : Option (Except TlsError TlsConfig) :=
  match checkRange b.minVersion b.maxVersion with
  | .error e => some (.error e)
  | .ok () =>
    match b.caFile.map (TlsLibrary.setCaFile files) with
    | some none => none
    | loaded => some do
      if let some (some r) := loaded then r
      if !b.alpn.isEmpty then TlsLibrary.setAlpnProtos (← alpnWire b.alpn)
      return { isServer := false, servername := b.servername, minVersion := b.minVersion,
               maxVersion := b.maxVersion, alpn := b.alpn }

def loadIdentity (cert key : List UInt8) : Except TlsError CertInfo := do
  let info ← (TlsLibrary.certificateFromPem cert).mapError fun e => .certificate ("Failed to load certificate: " ++ e)
  let _ ← (TlsLibrary.privateKeyFromPem key).mapError fun e => .certificate ("Failed to load private key: " ++ e)
  TlsLibrary.useIdentity cert key
  return info

/-- Builds a server configuration from settings: versions are read and checked, then the
certificate file and the key file (the certificate's own file when none is named) are read and
loaded, or a self-signed certificate for `localhost` is made. -/
def serverConfig (s : TlsSettings) (files : FileSystem) : Except TlsError TlsConfig := do
  let lo ← Version.parse? s.minVersion
  let hi ← Version.parse? s.maxVersion
  checkRange lo hi
  let identity ← match s.certFile with
    | some cert => do
      let certText ← (files.read cert).mapError .io
      let keyText ← (files.read (s.keyFile.getD cert)).mapError .io
      loadIdentity certText keyText
    | none => TlsLibrary.selfSigned "localhost"
  return { isServer := true, minVersion := lo, maxVersion := hi, alpn := s.alpn, identity := some identity }

/-- A client configuration from version texts: a range, then a single version that overrides
it; the texts are read in that order. None when building aborts. -/
def clientConfig (lo hi : Option String) (alpn : List String) (verifyPeer : Bool)
    (servername version caFile : Option String) (files : FileSystem) : Option (Except TlsError TlsConfig) :=
  let range : Except TlsError (Option Version × Option Version) := do
    let lo ← Version.parse? lo
    let hi ← Version.parse? hi
    let v ← Version.parse? version
    return match v with
      | some v => (some v, some v)
      | none => (lo, hi)
  match range with
  | .error e => some (.error e)
  | .ok (lo, hi) => ClientBuilder.build { minVersion := lo, maxVersion := hi, alpn, servername, verifyPeer, caFile } files

end Library

end Switchboard.Tls
