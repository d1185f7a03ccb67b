import Switchboard.Server.Admission
import Switchboard.Stats
import Switchboard.Peer.Report
import Switchboard.Server.Session
/-!
# Reports of server values

Rejections are reported by name, text and return code; statistics by their seven figures.
-/
namespace Switchboard.Server

def Rejection.name : Rejection → String
  | .serverPending => "MaxPendingRequest"
  | .sessionRate => "MaxSessionRequestPerSecond"
  | .sessionPending => "MaxSessionPendingRequest"

def Rejection.report (r : Rejection) : Report :=
  .record [("error", .text "Rejection"), ("rejection", .text r.name), ("message", .text r.message),
    ("return_code", .text r.returnCode.name)]

def Holder.Reply.report : Holder.Reply → Report
  | .entered g => .record [("guard", Report.opt .num g)]
  | .rejected r => r.report
  | .released b => .bool b
  | .done => .null

def Holder.report (h : Holder) : Report :=
  .record [("pending_request", .num h.admission.pending), ("session_count", .num h.admission.sessionCount),
    ("session_pending", .list (h.sessionPending.map fun p => .list [.num p.1, .num p.2]))]

end Switchboard.Server

namespace Switchboard

def OsError.report (e : OsError) : Report := Report.error e.kind e.message

def Snapshot.report (s : Snapshot) : Report :=
  .record [("bytes_sent", .num s.bytesSent), ("bytes_received", .num s.bytesReceived),
    ("packets_sent", .num s.packetsSent), ("packets_received", .num s.packetsReceived),
    ("sessions_connected", .num s.sessionsConnected), ("sessions_disconnected", .num s.sessionsDisconnected),
    ("sessions_active", .num s.sessionsActive)]

def reportSnapshot? : Option Snapshot → Report
  | some s => s.report
  | none => .record [("error", .text "panic")]

def reportAggregate (sources : List Source) : Report :=
  match (Source.aggregate sources).snapshot? with
  | some s => .record [("snapshot", s.report), ("len", .num sources.length), ("is_empty", .bool sources.isEmpty),
      ("bytes_sent", .num s.bytesSent), ("bytes_received", .num s.bytesReceived)]
  | none => .record [("error", .text "panic")]

end Switchboard

namespace Switchboard.Server

def Framing.name : Framing → String
  | .raw => "Raw"
  | .webSocket => "WebSocket"

def Session.report (s : Session) : Report :=
  .record [("id", .text ("#" ++ toString s.id)), ("connected", .bool s.connected),
    ("framing", .text s.framing.name), ("shutdowns", .num s.shutdowns), ("stats", s.statistics.values.report)]

end Switchboard.Server
