import Switchboard.Tls.Report
import Switchboard.Net.Binding
import Switchboard.Config.Report
import Switchboard.Http.Report
/-!
# Building and starting servers

A server is built from its settings and started. Building a stream server (HTTP, WebSocket or
TCP) first sets up TLS when its settings enable it, then validates the settings; a datagram
server only validates them. Starting reads the bind address and binds it among the host's bound
sockets; a server that is already running refuses to start again. A group starts its servers in
order; when one fails, those started before it are stopped and the group reports that failure.
A group holds its servers by handle, so one server may stand in it twice, and a start may change
the host's state whether it succeeds or fails.
-/
namespace Switchboard.Server

open Switchboard.Net
open Switchboard.Tls

/-- The kinds of server. -/
inductive Kind where
  | http
  | ws
  | tcp
  | udp
  deriving DecidableEq, Repr

/-- Why a server could not be built or started. -/
inductive ServerError where
  | io (e : OsError)
  | http (e : Http.HttpError)
  | tls (e : TlsError)
  | config (e : ConfigError)
  | invalidAddress (address : String)
  | alreadyStarted (name : String)
  deriving Repr

def ServerError.message : ServerError → String
  | .io e => "I/O error: " ++ e.message
  | .http e => "HTTP error: " ++ e.message
  | .tls e => "TLS error: " ++ e.message
  | .config e => "Configuration error: " ++ e.message
  | .invalidAddress a => "Invalid bind address " ++ a
  | .alreadyStarted n => "Server " ++ n ++ " is already running"

def ServerError.report (e : ServerError) : Report :=
  match e with
  | .io _ => Report.error "Io" e.message
  | .invalidAddress _ => Report.error "InvalidAddress" e.message
  | .alreadyStarted _ => Report.error "AlreadyStarted" e.message
  | .tls t => .record [("error", .text "Tls"), ("inner", t.report)]
  | .config c => .record [("error", .text "Config"), ("inner", c.report)]
  | .http h => .record [("error", .text "Http"), ("inner", h.report)]

/-- A built server: its kind, settings, TLS configuration, whether it runs and where. -/
structure Endpoint where
  kind : Kind
  settings : ServerSettings
  tls : Option TlsConfig := none
  running : Bool := false
  address : Option SocketAddr := none

def Endpoint.build [TlsLibrary] (kind : Kind) (settings : ServerSettings) (files : FileSystem) :
    Except ServerError Endpoint := do
  let tls ← if kind != .udp && settings.tls.enabled then
      match serverConfig settings.tls files with
      | .ok c => pure (some c)
      | .error e => throw (.tls e)
    else pure none
  match settings.validate with
  | .error e => throw (.config e)
  | .ok _ => return { kind, settings, tls }

def Kind.transport : Kind → Transport
  | .udp => .datagram
  | _ => .stream

/-- Starts a server on a host with the given bound sockets, `spawn` being what spawning its
acceptor thread gives: reads its address and binds it, allowing reuse as its settings say, refuses a
server that already runs, and spawns the thread. A failed spawn ends the server again, which keeps
the address it began on. A refused or failed start closes the new socket again. Answers the outcome,
the server and the bound sockets. -/
def Endpoint.start (s : Endpoint) (bound : List Binding) (spawn : Except OsError Unit) :
    Except ServerError Unit × Endpoint × List Binding :=
  match SocketAddr.parse? s.settings.bindAddress with
  | none => (.error (.invalidAddress s.settings.bindAddress), s, bound)
  | some a =>
    match s.kind.transport.bindAmong bound s.settings.reuseAddress a with
    | .error e => (.error (.io e), s, bound)
    | .ok bound' =>
      if s.running then (.error (.alreadyStarted s.settings.name), s, bound)
      else match spawn with
        | .error e => (.error (.io e), { s with address := some a }, bound)
        | .ok () => (.ok (), { s with running := true, address := some a }, bound')

def Endpoint.stop (s : Endpoint) : Endpoint := { s with running := false }

/-- Starts a running server once more and then stops it: the second start's error, and whether
the server runs after the stop. -/
def Endpoint.restartThenStop (s : Endpoint) (bound : List Binding) : Option ServerError × Bool :=
  let second := match (s.start bound (.ok ())).1 with
    | .ok () => none
    | .error e => some e
  (second, s.stop.running)

/-- What a group needs of its servers: each server, named by a handle `ι` into the host's state
`W`, can be started, which may fail and may change the state either way, and stopped. -/
structure Servers (ι W ε : Type) where
  start : ι → W → Except ε Unit × W
  stop : ι → W → W

/-- Starts the servers in order. When one fails, the ones started before it are stopped, in order,
and its failure is the answer. -/
def Servers.startAll {ι W ε : Type} (S : Servers ι W ε) (servers : List ι) (w : W) : Except ε Unit × W :=
  go [] servers w
where
  go (started : List ι) : List ι → W → Except ε Unit × W
    | [], w => (.ok (), w)
    | i :: rest, w =>
      match S.start i w with
      | (.ok (), w) => go (started ++ [i]) rest w
      | (.error e, w) => (.error e, started.foldl (fun w j => S.stop j w) w)

/-- Built servers on a host: each of `n` servers by its place, the sockets bound so far, and what
spawning each server's thread gives. -/
structure Host (n : Nat) where
  servers : Fin n → Endpoint
  bound : List Binding
  spawn : Fin n → Except OsError Unit := fun _ => .ok ()

/-- The servers of a host: a start binds among the host's sockets and replaces the server by what
the start made of it. -/
def Host.group (n : Nat) : Servers (Fin n) (Host n) ServerError where
  start i h :=
    let (outcome, s, bound) := (h.servers i).start h.bound (h.spawn i)
    (outcome, { h with servers := fun j => if j = i then s else h.servers j, bound })
  stop i h := { h with servers := fun j => if j = i then (h.servers j).stop else h.servers j }

/-- Starts servers in order on a host with no bound sockets, `spawn` being what spawning each one's
thread gives; on a failure the ones started before are stopped. -/
def startGroup (servers : List Endpoint) (spawn : Fin servers.length → Except OsError Unit := fun _ => .ok ()) :
    Option ServerError × List Endpoint :=
  let started := (Host.group servers.length).startAll (List.finRange servers.length)
    { servers := fun i => servers[i], bound := [], spawn }
  let failure := match started.1 with
    | .ok () => none
    | .error e => some e
  (failure, List.ofFn started.2.servers)

end Switchboard.Server
