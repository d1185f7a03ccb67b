import Switchboard.WebSocket.Handshake
import Switchboard.Http.Report
/-!
# Reports of WebSocket values

Events are reported as a tag followed by their data; errors by kind and text, an HTTP error also
by its inner kind.
-/
namespace Switchboard.WebSocket

def Event.report : Event → Report
  | .message d => .list [.text "message", Report.bytes d]
  | .close d s => .list [.text "close", Report.bytes d, .num s]
  | .ping d => .list [.text "ping", Report.bytes d]
  | .pong d => .list [.text "pong", Report.bytes d]
  | .error t => .list [.text "error", .text t]

def reportEvents (es : List Event) : Report := .list (es.map Event.report)

def WsError.kind : WsError → String
  | .http _ => "Http"
  | .handshake _ => "Handshake"
  | .protocol _ => "Protocol"
  | .notConnected => "NotConnected"
  | .closed => "Closed"

def WsError.report (e : WsError) : Report :=
  match e with
  | .http inner => .record [("error", .text e.kind), ("message", .text e.message), ("inner", .text inner.kind)]
  | _ => Report.error e.kind e.message

def Opcode.name : Opcode → String
  | .continuation => "Continuation"
  | .text => "Text"
  | .binary => "Binary"
  | .close => "Close"
  | .ping => "Ping"
  | .pong => "Pong"

def Opcode.report (o : Opcode) : Report :=
  .record [("opcode", .text o.name), ("value", .num o.code), ("control", .bool o.isControl)]

def Upgrade.name : Upgrade → String
  | .notRequested => "NotRequested"
  | .rejected => "Rejected"
  | .accepted => "Accepted"

def Engine.report (e : Engine) : Report :=
  .record [("handshaked", .bool e.handshaked), ("client", .bool e.client),
    ("max_message_size", .num e.maxMessageSize)]

def reportDone {α : Type} : Except WsError α → Report
  | .ok _ => .text "ok"
  | .error e => e.report

end Switchboard.WebSocket
