import Switchboard.Buffer
/-!
# HTTP errors

Each cause of failure in reading, writing or parsing an HTTP message is one constructor; its text
is written in one place, `HttpError.message`.
-/
namespace Switchboard.Http

/-- Why an HTTP operation failed. -/
inductive HttpError where
  /-- The transport failed; the text describes how. -/
  | io (text : String)
  /-- A range of the message cache was out of bounds. -/
  | buffer (e : ByteBuffer.RangeError)
  /-- The start line or a line ending is malformed. -/
  | parse (text : String)
  /-- A method name that is not one of the standard methods. -/
  | invalidMethod (text : String)
  /-- A status code outside its range, or a status field that is not a number. -/
  | invalidStatus (text : String)
  /-- A header line that cannot be read. -/
  | invalidHeader (text : String)
  /-- The peer did not become ready in time. -/
  | timeout
  /-- The peer closed the connection. -/
  | connectionClosed
  deriving Repr, DecidableEq

def HttpError.message : HttpError → String
  | .io t => s!"I/O error: {t}"
  | .buffer e => s!"Buffer error: {e.message}"
  | .parse t => s!"Parse error: {t}"
  | .invalidMethod t => s!"Invalid HTTP method: {t}"
  | .invalidStatus t => s!"Invalid HTTP status: {t}"
  | .invalidHeader t => s!"Invalid header: {t}"
  | .timeout => "Timeout"
  | .connectionClosed => "Connection closed"

end Switchboard.Http
