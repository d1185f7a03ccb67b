import Switchboard.Web.Controller
import Switchboard.WebSocket.Handshake
/-!
# HTTP connections

One connection of an HTTP server. Received bytes are fed to the request being read; a request that
cannot be read or grows past the size limit is answered with `400`, a complete one is dispatched,
and the bytes after it are fed at once to a fresh request. With a WebSocket service a complete
request is first offered as an upgrade, after which every byte goes to the engine.
-/
namespace Switchboard.Server

open Switchboard.Http
open Switchboard.WebSocket

def closeProtocolError : Nat := 1002

/-- An HTTP server as its connections see it: the message size limit, whether plain requests are
refused, the controller taking complete requests, and the WebSocket service taking the messages of
upgraded connections; `σ` is the state of the two. -/
structure HttpServer (σ : Type) where
  maxMessageSize : Nat
  websocketOnly : Bool := false
  received : σ → Link → Request → σ × Link
  websocket : Option (σ → Link → List UInt8 → σ × Link) := none

/-- What feeding bytes to the request being read asks of the connection. -/
inductive Feed where
  | wait
  | close
  | next (surplus : List UInt8)
  deriving Repr, DecidableEq

/-- A connection: the request being read, the WebSocket engine once upgraded, the state of the
services behind it and the link it serves. -/
structure HttpConnection (σ : Type) where
  request : Request := {}
  upgraded : Option Engine := none
  services : σ
  link : Link

def upgradeRequired : Response :=
  (((({} : Response).setBegin 400).setHeader "Connection" "close").setHeader "Content-Type"
    "text/plain; charset=UTF-8").setBody (utf8 "WebSocket upgrade required")

namespace HttpServer

variable {σ : Type} (h : HttpServer σ) [Crypto]

/-- Acts on one event of an upgraded connection's engine: a message goes to the service, a ping is
answered with a pong, and a close or a protocol error is answered with a close frame and
disconnects. A frame that cannot be delivered is dropped. -/
def bridge (ws : σ → Link → List UInt8 → σ × Link) (x : σ × Link) : Event → σ × Link
  | .message data => ws x.1 x.2 data
  | .ping data => (x.1, x.2.send (encodeFrame .pong true none data 0))
  | .close _ status => (x.1, (x.2.send (encodeFrame .close true none [] status)).close)
  | .error _ => (x.1, (x.2.send (encodeFrame .close true none [] closeProtocolError)).close)
  | .pong _ => x

def receiveFrames (c : HttpConnection σ) (data : List UInt8) : HttpConnection σ :=
  match c.upgraded, h.websocket with
  | some e, some ws =>
    let (events, e) := e.receive data
    let (services, link) := events.foldl (bridge ws) (c.services, c.link)
    { c with upgraded := some e, services, link }
  | _, _ => c

/-- Offers a complete request as a WebSocket upgrade when there is a WebSocket service, with a
fresh engine that any handler lets go ahead. An accepted upgrade is answered with `101` and
switches the connection to frames; a rejected one is answered, and closes the connection. None
when no upgrade was asked for. -/
def upgrade (c : HttpConnection σ) (request : Request) : Option (Bool × HttpConnection σ) :=
  h.websocket.bind fun _ =>
    match (Engine.fresh false h.maxMessageSize).serverUpgrade request {} () (fun u _ r => (true, r, u)) with
    | (.accepted, e, response, _) =>
      match c.link.session.send response.raw with
      | (some _, session) => some (false, { c with link := { c.link with session } })
      | (none, session) =>
        some (true, { c with upgraded := some e,
                             link := { c.link with session := { session with framing := .webSocket } } })
    | (.rejected, _, response, _) => some (false, { c with link := c.link.send response.raw })
    | (.notRequested, _, _, _) => none

def handleRequest (c : HttpConnection σ) (request : Request) : Bool × HttpConnection σ :=
  match h.upgrade c request with
  | some r => r
  | none =>
    if h.websocketOnly then (false, { c with link := c.link.send upgradeRequired.raw })
    else
      let (services, link) := h.received c.services c.link request
      (true, { c with services, link })

/-- Feeds bytes to the request being read: to its header block while that is awaited, else to its
body. A complete request is dispatched, and the bytes after it are handed back. -/
def feed (c : HttpConnection σ) (data : List UInt8) : Feed × HttpConnection σ :=
  let (request, body) :=
    if c.request.isPendingHeader then ((c.request.receiveHeader data).2, []) else (c.request, data)
  if request.state == .errorSet then
    (.close, { c with request, link := Web.Controller.requestError c.link "Invalid HTTP request" })
  else
    let (complete, request) := if request.state == .pendingBody then request.receiveBody body else (false, request)
    if !complete then
      if h.maxMessageSize < request.cache.length then
        (.close, { c with request, link := Web.Controller.requestError c.link "Request too large" })
      else (.wait, { c with request })
    else
      match h.handleRequest { c with request := {} } request with
      | (false, c) => (.close, c)
      | (true, c) => if request.surplus.isEmpty then (.wait, c) else (.next request.surplus, c)

/-- Acts on what feeding asked: waits, closes, or feeds on the bytes after a complete request, to
the engine when that request upgraded the connection. Those bytes are always fewer than the bytes
`fed` that brought them; feeding goes on only while they are. -/
def drive (fed : List UInt8) : Feed × HttpConnection σ → Bool × HttpConnection σ
  | (.wait, c) => (c.link.session.connected, c)
  | (.close, c) => (false, c)
  | (.next surplus, c) =>
    if !c.link.session.connected then (false, c)
    else if c.upgraded.isSome then
      let c := h.receiveFrames c surplus
      (c.link.session.connected, c)
    else if surplus.length < fed.length then drive surplus (h.feed c surplus)
    else (c.link.session.connected, c)
termination_by fed.length

def onData (c : HttpConnection σ) (data : List UInt8) : Bool × HttpConnection σ :=
  if c.upgraded.isSome then
    let c := h.receiveFrames c data
    (c.link.session.connected, c)
  else h.drive data (h.feed c data)

/-- Hands reads to the connection in order until one closes it: whether each read kept the
connection open, and the connection after them. -/
def receiveReads (c : HttpConnection σ) : List (List UInt8) → List Bool × HttpConnection σ
  | [] => ([], c)
  | data :: reads =>
    match h.onData c data with
    | (true, c) =>
      let (kept, c) := receiveReads c reads
      (true :: kept, c)
    | (false, c) => ([false], c)

end HttpServer

/-- The HTTP server of a web controller: a complete request goes to the controller at the time
`clock` gives for the number of requests handed over before it. -/
def webServer {κ : Type} (c : Web.Controller κ) (maxMessageSize : Nat) (clock : Nat → Nat) :
    HttpServer (Fiber (Web.WebJob κ) × Nat) where
  maxMessageSize := maxMessageSize
  received s l q := (((c.onReceived s.1 l (clock s.2) q).1, s.2 + 1), (c.onReceived s.1 l (clock s.2) q).2)

end Switchboard.Server
