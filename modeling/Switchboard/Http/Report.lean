import Switchboard.Http.Request
import Switchboard.Http.Response
import Switchboard.Report
/-!
# Reports of HTTP values

Errors are reported by kind and text; messages by their start line, fields, body, the bytes after
the body, all bytes, and parse state. Field look-ups report the first header, all headers and the
cookie of each name asked for.
-/
namespace Switchboard.Http

def HttpError.kind : HttpError → String
  | .io _ => "Io"
  | .buffer _ => "Buffer"
  | .parse _ => "Parse"
  | .invalidMethod _ => "InvalidMethod"
  | .invalidStatus _ => "InvalidStatus"
  | .invalidHeader _ => "InvalidHeader"
  | .timeout => "Timeout"
  | .connectionClosed => "ConnectionClosed"

def HttpError.report (e : HttpError) : Report := Report.error e.kind e.message

def ParseState.name : ParseState → String
  | .empty => "Empty"
  | .pendingHeader => "PendingHeader"
  | .pendingBody => "PendingBody"
  | .complete => "Complete"
  | .errorSet => "ErrorSet"

def Message.reportFields (m : Message) (lookup : List String) : List (String × Report) :=
  [("state", .text m.state.name), ("headers", Report.pairs m.headers.entries),
   ("cookies", Report.pairs m.cookies.entries), ("body", Report.bytes m.body),
   ("body_length", .num m.bodyLength), ("surplus", Report.bytes m.surplus),
   ("cache", Report.bytes m.raw), ("is_empty", .bool m.isEmpty)] ++
  if lookup.isEmpty then [] else
    [("lookup", .record (lookup.map fun k => (k, .record
      [("header", Report.opt .text (m.headers.get? k)), ("all", Report.texts (m.headers.getAll k)),
       ("cookie", Report.opt .text (m.cookies.get? k))])))]

def Request.report (r : Request) (lookup : List String := []) : Report :=
  .record ([("method", .text r.method), ("method_kind", Report.opt (.text ·.name) r.methodKind),
    ("url", .text r.url), ("protocol", .text r.protocol), ("display", .text r.display)] ++
    r.toMessage.reportFields lookup)

def Response.report (r : Response) (lookup : List String := []) : Report :=
  .record ([("status", .num r.status), ("status_phrase", .text r.phrase),
    ("protocol", .text r.protocol), ("display", .text r.display)] ++ r.toMessage.reportFields lookup)

def StartLine.report (l : StartLine) : Report :=
  .record [("first", .text l.first), ("second", .text l.second), ("third", .text l.third),
    ("next", .num l.next)]

def Method.report (m : Method) : Report :=
  .record [("method", .text m.name), ("bodyless", .bool m.bodyless), ("display", .text m.name)]

def Status.report (s : Status) : Report :=
  .record [("code", .num s.code), ("reason", .text s.reason), ("success", .bool s.isSuccess),
    ("client_error", .bool s.isClientError), ("server_error", .bool s.isServerError),
    ("display", .text s.render)]

def reportHeaderLines (r : Except HttpError (Option Nat) × HeaderScan) : Report :=
  let fields := [("headers", Report.pairs r.2.headers.entries), ("cookies", Report.pairs r.2.cookies.entries)]
  match r.1 with
  | .ok cl => .record (("content_length", Report.opt .num cl) :: fields)
  | .error e => .record ([("error", .text e.kind), ("message", .text e.message)] ++ fields)

def reportOr {α : Type} (f : α → Report) : Except HttpError α → Report
  | .ok a => f a
  | .error e => e.report

end Switchboard.Http
