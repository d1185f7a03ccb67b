import Switchboard.Http.Client
import Switchboard.WebSocket.Handshake
/-!
# The WebSocket client

A client upgrades an HTTP connection, then sends masked frames and reads frames in reads of up
to 8192 bytes. Frame bytes that came with the upgrade response are decoded before the next read.
While reading, every ping is answered with a pong carrying its data, and a close is answered with
a close (status 1000 when the peer gave none) unless one was sent already; the connection then
closes. Nothing is sent or read before the upgrade or after the close.
-/
namespace Switchboard.WebSocket

open Switchboard.Http
open Switchboard.Net

def frameReadChunk : Nat := 8192

/-- A WebSocket client over a replayed connection. -/
structure WsClient where
  http : HttpClient
  engine : Engine := Engine.fresh true
  backlog : List UInt8 := []
  closeSent : Bool := false
  closed : Bool := false

def Event.pinged : Event → Option (List UInt8)
  | .ping d => some d
  | _ => none

def Event.closing : Event → Option Nat
  | .close _ s => some s
  | _ => none

namespace WsClient

variable [Crypto]

def connected (c : WsClient) : Bool := c.engine.handshaked && !c.closed

def upgradeWith (c : WsClient) : Engine × Request → Except WsError Unit × WsClient
  | (engine, request) =>
    let c := { c with engine }
    match c.http.exchange request with
    | (.error e, http) => (.error (.http e), { c with http })
    | (.ok response, http) =>
      let c := { c with http }
      match c.engine.clientUpgrade response with
      | .error e => (.error e, c)
      | .ok engine => (.ok (), { c with engine, backlog := response.surplus, closeSent := false, closed := false })

/-- Sends the upgrade request for a path on a host and reads the answer. The request is made
apart from the exchange, so that the exchange can be followed for any request. -/
def connect (c : WsClient) (host path : String) : Except WsError Unit × WsClient :=
  c.upgradeWith (c.engine.clientUpgradeRequest {} host path)

def sendFrame (c : WsClient) (opcode : Opcode) (payload : List UInt8) (status : Nat) :
    Except WsError Unit × WsClient :=
  if !c.engine.handshaked then (.error .notConnected, c)
  else if c.closed then (.error .closed, c)
  else
    let (frame, engine) := c.engine.prepareSendFrame opcode true true payload status
    match c.http.send frame with
    | (.ok (), http) => (.ok (), { c with engine, http })
    | (.error e, http) => (.error (.http e), { c with engine, http })

def close (c : WsClient) (status : Nat) : Except WsError Unit × WsClient :=
  if c.closeSent then (.ok (), c)
  else match c.sendFrame .close [] status with
    | (.ok (), c) => (.ok (), { c with closeSent := true })
    | r => r

def pong (c : WsClient) : List (List UInt8) → Except WsError Unit × WsClient
  | [] => (.ok (), c)
  | d :: rest =>
    match c.sendFrame .pong d 0 with
    | (.ok (), c) => pong c rest
    | r => r

/-- The next bytes to decode: those that came with the upgrade answer first, else one read. A read
that brings nothing means the peer closed the connection. -/
def nextData (c : WsClient) : Except WsError (List UInt8) × WsClient :=
  if c.backlog.isEmpty then
    match c.http.conn.read frameReadChunk with
    | (.error e, conn) => (.error (.http e), { c with http := { c.http with conn } })
    | (.ok [], conn) => (.error .closed, { c with http := { c.http with conn }, closed := true })
    | (.ok data, conn) => (.ok data, { c with http := { c.http with conn } })
  else (.ok c.backlog, { c with backlog := [] })

/-- Decodes bytes read, answers the pings with pongs and a close with a close, once; answers the
events handed to the user. -/
def takeData (c : WsClient) (data : List UInt8) : Except WsError Unit × List Event × WsClient :=
  let (events, engine) := c.engine.receive data
  let c := { c with engine }
  let pings := events.filterMap Event.pinged
  let close := events.findSome? Event.closing
  match c.pong pings with
  | (.error e, c) => (.error e, events, c)
  | (.ok (), c) =>
    match close with
    | none => (.ok (), events, c)
    | some status =>
      let (r, c) := if c.closeSent then (.ok (), c)
        else c.close (if status == 0 then closeNormal else status)
      match r with
      | .error e => (.error e, events, c)
      | .ok () => (.ok (), events, { c with closed := true, http := c.http.close })

def receive (c : WsClient) : Except WsError Unit × List Event × WsClient :=
  if !c.engine.handshaked then (.error .notConnected, [], c)
  else if c.closed then (.error .closed, [], c)
  else
    match c.nextData with
    | (.error e, c) => (.error e, [], c)
    | (.ok data, c) => c.takeData data

end WsClient

end Switchboard.WebSocket
