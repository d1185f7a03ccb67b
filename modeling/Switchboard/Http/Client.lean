import Switchboard.Net.Replay
import Switchboard.Http.Request
import Switchboard.Http.Response
/-!
# The HTTP client

A client sends requests over a connection and reads one response at a time with the incremental
parser, in reads of up to 4096 bytes. A response is complete when its body is; a header block
that cannot be read fails as malformed, and a read that brings nothing means the connection was
closed. Each request names the client's host.
-/
namespace Switchboard.Http

open Switchboard.Net

def readChunk : Nat := 4096

/-- A client over a replayed connection. The timeout is in milliseconds. -/
structure HttpClient where
  conn : Replay
  timeoutMs : Option Nat := some 10000
  host : String := "localhost"
  response : Response := {}

namespace HttpClient

variable [Crypto]

def send (c : HttpClient) (bytes : List UInt8) : Except HttpError Unit × HttpClient :=
  let (r, conn) := c.conn.writeAll bytes
  (r, { c with conn })

def receiveWith (fuel : Nat) (c : HttpClient) : Except HttpError Response × HttpClient :=
  match fuel with
  | 0 => (.error .connectionClosed, c)
  | f + 1 =>
    match c.conn.read readChunk with
    | (.error e, conn) => (.error e, { c with conn })
    | (.ok [], conn) => (.error .connectionClosed, { c with conn })
    | (.ok data, conn) =>
      let c := { c with conn }
      let (r, data) := if c.response.isPendingHeader then ((c.response.receiveHeader data).2, []) else (c.response, data)
      let c := { c with response := r }
      if r.state == .errorSet then (.error (.parse "malformed response header"), c)
      else if r.state == .pendingBody then
        match r.receiveBody data with
        | (true, r) => (.ok r, { c with response := r })
        | (false, r) => receiveWith f { c with response := r }
      else receiveWith f c

def receive (c : HttpClient) : Except HttpError Response × HttpClient :=
  receiveWith c.conn.weight { c with response := {} }

def exchange (c : HttpClient) (request : Request) : Except HttpError Response × HttpClient :=
  match c.send request.raw with
  | (.ok (), c) => c.receive
  | (.error e, c) => (.error e, c)

def get (c : HttpClient) (url : String) : Except HttpError Response × HttpClient :=
  c.exchange (((({} : Request).setBegin "GET" url).setHeader "Host" c.host).setBody [])

def post (c : HttpClient) (url : String) (body : List UInt8) (contentType : String) :
    Except HttpError Response × HttpClient :=
  let r := (({} : Request).setBegin "POST" url).setHeader "Host" c.host
  let r := if contentType.isEmpty then r else r.setHeader "Content-Type" contentType
  c.exchange (r.setBody body)

def close (c : HttpClient) : HttpClient := { c with conn := c.conn.close }

end HttpClient

end Switchboard.Http
