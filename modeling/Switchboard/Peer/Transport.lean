import Switchboard.Peer.Message
/-!
# Peer transports

A client peer talks through a transport: it can be asked whether it is connected, given a message
to send, asked for every message received so far, and disconnected. The memory transport keeps what was
sent and what is to be received in lists; it can be broken, and then every send fails as on a
broken pipe.
-/
namespace Switchboard.Peer

/-- What a client peer needs of its connection. -/
class Transport (τ : Type) where
  connected : τ → Bool
  send : τ → Message → Option PeerError × τ
  drain : τ → List Message × τ
  disconnect : τ → τ

/-- A connection held in memory. -/
structure MemoryTransport where
  connected : Bool := true
  broken : Bool := false
  incoming : List Message := []
  sent : List Message := []
  deriving Repr

instance : Transport MemoryTransport where
  connected t := t.connected
  send t m := if t.broken then (some (.io "broken pipe"), t) else (none, { t with sent := t.sent ++ [m] })
  drain t := (t.incoming, { t with incoming := [] })
  disconnect t := { t with connected := false }

end Switchboard.Peer
