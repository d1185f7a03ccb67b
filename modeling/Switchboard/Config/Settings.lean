import Switchboard.Config.Client
import Switchboard.Toml.Parse
import Switchboard.Text.WhiteSpace
/-!
# Settings

The settings of a whole program: a log filter, one server's settings with its TLS settings, and a
client's. They are read from TOML, every table and field taking its default when left out; a field
of the wrong type or out of range fails the reading, and validation reports every problem found.
-/
namespace Switchboard

/-- The TLS settings of a server. Without a certificate file a self-signed certificate is used. -/
structure TlsSettings where
  enabled : Bool := false
  certFile : Option String := none
  keyFile : Option String := none
  minVersion : Option String := none
  maxVersion : Option String := none
  alpn : List String := []
  deriving Repr, DecidableEq

/-- The settings of one server. -/
structure ServerSettings where
  name : String := "protonnet"
  bindAddress : String := "127.0.0.1:0"
  maxPendingRequest : Nat := 0
  maxSessionPendingRequest : Nat := 0
  maxSessionRequestPerSecond : Nat := 0
  receiveFiberThreads : Nat := 4
  otherFiberThreads : Nat := 1
  receiveBufferSize : Nat := 8192
  sendBufferSize : Nat := 8192
  tcpNoDelay : Bool := true
  reuseAddress : Bool := true
  listenBacklog : Int := 1024
  maxMessageSize : Nat := 1048576
  tls : TlsSettings := {}
  deriving Repr, DecidableEq

/-- The settings of a program. -/
structure Settings where
  logFilter : String := "info"
  server : ServerSettings := {}
  client : ClientSettings := {}
  deriving Repr, DecidableEq

def blankText (s : String) : Bool := s.toList.all isWhiteSpace

namespace ServerSettings

def problems (s : ServerSettings) : List String :=
  (if blankText s.bindAddress then ["server.bind_address is empty"] else []) ++
  (if s.receiveFiberThreads == 0 then ["server.receive_fiber_threads must be > 0"] else []) ++
  (if s.otherFiberThreads == 0 then ["server.other_fiber_threads must be > 0"] else []) ++
  (if s.receiveBufferSize == 0 then ["server.receive_buffer_size must be > 0"] else []) ++
  (if s.tls.enabled && s.tls.keyFile.isSome && s.tls.certFile.isNone then
    ["server.tls.key_file given without cert_file"] else [])

end ServerSettings

/-- Why settings could not be had. -/
inductive ConfigError where
  | parse
  | invalid (problems : List String)
  deriving Repr, DecidableEq

def ConfigError.message : ConfigError → String
  | .parse => "Parse error"
  | .invalid ps => "Invalid configuration: " ++ ", ".intercalate ps

def Settings.problems (s : Settings) : List String := s.server.problems ++ s.client.problems

def Settings.validate (s : Settings) : Except ConfigError Settings :=
  if s.problems.isEmpty then .ok s else .error (.invalid s.problems)

def ServerSettings.validate (s : ServerSettings) : Except ConfigError ServerSettings :=
  if s.problems.isEmpty then .ok s else .error (.invalid s.problems)

namespace Toml

/-- The fields of a structure with the given field names, from a table or an array. A date-time
is read as a structure whose single field is the date-time's own, which no settings structure
has, so it gives no fields and every field keeps its default. -/
def fields (names : List String) : Value → Option (List (String × Value))
  | .table es => some es
  | .array items => some (names.zip items)
  | .datetime => some []
  | _ => none

def field {α : Type} (es : List (String × Value)) (k : String) (d : α) (f : Value → Option α) : Option α :=
  match es.lookup k with
  | some v => f v
  | none => some d

def text : Value → Option String
  | .string s => some s
  | _ => none

def truth : Value → Option Bool
  | .boolean b => some b
  | _ => none

def bounded (low high : Int) : Value → Option Int
  | .integer i => if low ≤ i && i ≤ high then some i else none
  | _ => none

def natUpTo (high : Nat) (v : Value) : Option Nat := (bounded 0 high v).map Int.toNat

def word (v : Value) : Option Nat := natUpTo (Nat.pow 2 64 - 1) v

def texts : Value → Option (List String)
  | .array items => items.mapM text
  | _ => none

def tlsSettings (v : Value) : Option TlsSettings := do
  let es ← fields ["enabled", "cert_file", "key_file", "min_version", "max_version", "alpn"] v
  let d : TlsSettings := {}
  return { enabled := ← field es "enabled" d.enabled truth,
           certFile := ← field es "cert_file" none fun v => (text v).map some,
           keyFile := ← field es "key_file" none fun v => (text v).map some,
           minVersion := ← field es "min_version" none fun v => (text v).map some,
           maxVersion := ← field es "max_version" none fun v => (text v).map some,
           alpn := ← field es "alpn" d.alpn texts }

def serverSettings (v : Value) : Option ServerSettings := do
  let es ← fields ["name", "bind_address", "max_pending_request", "max_session_pending_request",
    "max_session_request_per_second", "receive_fiber_threads", "other_fiber_threads",
    "receive_buffer_size", "send_buffer_size", "tcp_no_delay", "reuse_address", "listen_backlog",
    "max_message_size", "tls"] v
  let d : ServerSettings := {}
  return { name := ← field es "name" d.name text,
           bindAddress := ← field es "bind_address" d.bindAddress text,
           maxPendingRequest := ← field es "max_pending_request" d.maxPendingRequest word,
           maxSessionPendingRequest := ← field es "max_session_pending_request" d.maxSessionPendingRequest word,
           maxSessionRequestPerSecond := ← field es "max_session_request_per_second" d.maxSessionRequestPerSecond word,
           receiveFiberThreads := ← field es "receive_fiber_threads" d.receiveFiberThreads word,
           otherFiberThreads := ← field es "other_fiber_threads" d.otherFiberThreads word,
           receiveBufferSize := ← field es "receive_buffer_size" d.receiveBufferSize word,
           sendBufferSize := ← field es "send_buffer_size" d.sendBufferSize word,
           tcpNoDelay := ← field es "tcp_no_delay" d.tcpNoDelay truth,
           reuseAddress := ← field es "reuse_address" d.reuseAddress truth,
           listenBacklog := ← field es "listen_backlog" d.listenBacklog (bounded (-(Int.pow 2 31)) (Int.pow 2 31 - 1)),
           maxMessageSize := ← field es "max_message_size" d.maxMessageSize word,
           tls := ← field es "tls" d.tls tlsSettings }

def clientSettings (v : Value) : Option ClientSettings := do
  let es ← fields ["send_rate", "default_timeout_secs", "ping_interval_ms", "max_rtt_samples",
    "receive_buffer_size", "tcp_no_delay", "connect_timeout_ms"] v
  let d : ClientSettings := {}
  return { sendRate := ← field es "send_rate" d.sendRate (natUpTo (Nat.pow 2 32 - 1)),
           defaultTimeoutSecs := ← field es "default_timeout_secs" d.defaultTimeoutSecs word,
           pingIntervalMs := ← field es "ping_interval_ms" d.pingIntervalMs word,
           maxRttSamples := ← field es "max_rtt_samples" d.maxRttSamples word,
           receiveBufferSize := ← field es "receive_buffer_size" d.receiveBufferSize word,
           tcpNoDelay := ← field es "tcp_no_delay" d.tcpNoDelay truth,
           connectTimeoutMs := ← field es "connect_timeout_ms" d.connectTimeoutMs word }

def settings (v : Value) : Option Settings := do
  let es ← fields ["log_filter", "server", "client"] v
  let d : Settings := {}
  return { logFilter := ← field es "log_filter" d.logFilter text,
           server := ← field es "server" d.server serverSettings,
           client := ← field es "client" d.client clientSettings }

end Toml

def Settings.ofToml (text : String) : Except ConfigError Settings :=
  match (Toml.parse text).bind fun es => Toml.settings (.table es) with
  | some s => s.validate
  | none => .error .parse

end Switchboard
