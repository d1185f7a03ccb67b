import Switchboard.OsError
import Switchboard.Stats
import Switchboard.Peer.Codec
import Switchboard.WebSocket.Frame
/-!
# Server sessions

What a service sees of one connected client: an id, whether it is still connected, and a sink
that takes the bytes sent to it. Bytes sent count in the server's statistics. Operation messages
go out as codec frames, each wrapped in one unmasked binary WebSocket frame when the session's
framing is WebSocket. A session disconnects once; sending afterwards fails as not connected.
-/
namespace Switchboard.Server

open Switchboard.Peer
open Switchboard.WebSocket

/-- How operation messages are framed on a session. -/
inductive Framing where
  | raw
  | webSocket
  deriving DecidableEq, Repr

/-- One client's session; `written` holds every byte its sink took. -/
structure Session where
  id : Nat
  framing : Framing := .raw
  connected : Bool := true
  written : List UInt8 := []
  shutdowns : Nat := 0
  statistics : Counters := {}
  deriving Repr

namespace Session

def send (s : Session) (data : List UInt8) : Option OsError × Session :=
  if !s.connected then (some .notConnected, s)
  else (none, { s with written := s.written ++ data, statistics := s.statistics.record (.sent data.length) })

def frameMessage (framing : Framing) (m : Message) : List UInt8 :=
  match framing with
  | .raw => m.encode
  | .webSocket => encodeFrame .binary true none m.encode 0

def sendMessage (s : Session) (m : Message) : Option OsError × Session := s.send (frameMessage s.framing m)

def disconnect (s : Session) : Bool × Session :=
  if s.connected then (true, { s with connected := false, shutdowns := s.shutdowns + 1 }) else (false, s)

end Session

end Switchboard.Server
