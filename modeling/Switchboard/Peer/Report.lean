import Switchboard.Peer.Codec
import Switchboard.Peer.Pending
import Switchboard.Report
/-!
# Reports of operation messages

Messages are reported by kind with their fields; return codes by name; errors by kind and text.
-/
namespace Switchboard.Peer

def ReturnCode.name : ReturnCode → String
  | .ok => "Ok"
  | .error => "Error"
  | .operationNotFound => "OperationNotFound"
  | .operationInvalid => "OperationInvalid"
  | .operationTimeout => "OperationTimeout"
  | .notAuthorized => "NotAuthorized"
  | .maxPendingRequest => "MaxPendingRequest"
  | .maxRequestPerSecond => "MaxRequestPerSecond"
  | .internalServerError => "InternalServerError"
  | .notConnected => "NotConnected"

def ReturnCode.report (c : ReturnCode) : Report := .record [("name", .text c.name), ("value", .num c.code)]

def PeerError.kind : PeerError → String
  | .io _ => "Io"
  | .buffer _ => "Buffer"
  | .codec _ => "Codec"
  | .messageTooLarge _ => "MessageTooLarge"
  | .notConnected => "NotConnected"

def PeerError.report (e : PeerError) : Report := Report.error e.kind e.message

def Request.report (r : Request) : Report :=
  .record [("kind", .text "request"), ("operation_code", .num r.operationCode),
    ("request_id", .num r.requestId), ("payload", Report.bytes r.payload), ("encrypted", .bool r.encrypted)]

def Response.report (r : Response) : Report :=
  .record [("kind", .text "response"), ("operation_code", .num r.operationCode),
    ("request_id", .num r.requestId), ("return_code", .text r.returnCode.name),
    ("debug_message", Report.opt .text r.debugMessage), ("payload", Report.bytes r.payload)]

def Event.report (e : Event) : Report :=
  .record [("kind", .text "event"), ("event_code", .num e.eventCode), ("payload", Report.bytes e.payload)]

def Message.report : Message → Report
  | .request r => r.report
  | .response r => r.report
  | .event e => e.report

def reportDecoded : Except PeerError Message → Report
  | .ok m => m.report
  | .error e => e.report

def SendParameters.report (p : SendParameters) : Report :=
  .record [("immediate", .bool p.immediate), ("encrypted", .bool p.encrypted), ("reliable", .bool p.reliable)]

end Switchboard.Peer
