import Switchboard.Buffer
import Switchboard.Http.Wire
import Switchboard.Http.HeaderLines
/-!
# HTTP messages

What requests and responses share: the bytes received or composed so far, the header and cookie
fields, the body offsets, and how far parsing has come. Header bytes are fed until the block
terminator arrives; the block is then read at once. Body bytes are fed until the body is
complete by its declared length, by the message having no body, or by a closing CR LF CR LF.
-/
namespace Switchboard.Http

/-- How far a message has been received. -/
inductive ParseState where
  | empty
  | pendingHeader
  | pendingBody
  | complete
  | errorSet
  deriving Repr, DecidableEq

/-- The bytes of a message with its fields, body offsets and parse state. -/
structure Message where
  cache : ByteBuffer := ByteBuffer.empty
  headers : Headers := {}
  cookies : Cookies := {}
  cursor : BodyCursor := {}
  state : ParseState := .empty
  deriving Repr

def http11 : String := "HTTP/1.1"

def crlf : String := "\r\n"

/-- Appends a read to the bytes of a header block still awaited and resumes the search for its
terminator where the last one stopped. Without a terminator, the next search resumes three bytes
before the end, where a terminator split across reads may begin. -/
def feedHeader (cache : ByteBuffer) (cursor : BodyCursor) (bytes : List UInt8) :
    Option Nat × ByteBuffer × BodyCursor :=
  let cache := (cache.write bytes).2
  match findTerminator cache.bytes cursor.scanFrom with
  | none => (none, cache, { cursor with scanFrom := rescanOffset cache.length })
  | some t => (some t, cache, cursor)

theorem found_feedHeader (cache : ByteBuffer) (cursor : BodyCursor) (bytes : List UInt8) :
    (feedHeader cache cursor bytes).1 = findTerminator (cache.write bytes).2.bytes cursor.scanFrom := by
  cases found : findTerminator (cache.write bytes).2.bytes cursor.scanFrom <;> simp [feedHeader, found]

theorem cache_feedHeader (cache : ByteBuffer) (cursor : BodyCursor) (bytes : List UInt8) :
    (feedHeader cache cursor bytes).2.1 = (cache.write bytes).2 := by
  cases found : findTerminator (cache.write bytes).2.bytes cursor.scanFrom <;> simp [feedHeader, found]

theorem cursor_feedHeader (cache : ByteBuffer) (cursor : BodyCursor) (bytes : List UInt8) :
    (feedHeader cache cursor bytes).2.2 = if (feedHeader cache cursor bytes).1 = none then
      { cursor with scanFrom := rescanOffset (cache.write bytes).2.length } else cursor := by
  cases found : findTerminator (cache.write bytes).2.bytes cursor.scanFrom <;> simp [feedHeader, found]

namespace Message

def raw (m : Message) : List UInt8 := m.cache.bytes

def writeText (m : Message) (s : String) : Message := { m with cache := (m.cache.write (utf8 s)).2 }

def clear (m : Message) : Message := { cache := m.cache.clear }

def addHeader (m : Message) (name value : String) : Message :=
  let m := m.writeText (name ++ ": " ++ value ++ crlf)
  { m with headers := m.headers.insert name value }

/-- Declares the body length, ends the header block and appends the body: the message is then
complete. -/
def setBody (m : Message) (body : List UInt8) : Message :=
  let m := (m.addHeader "Content-Length" (toString body.length)).writeText crlf
  let cursor := BodyCursor.declared m.cache.length body.length
  { m with cache := (m.cache.write body).2, cursor := { cursor with size := body.length },
           state := .complete }

def setBodyLength (m : Message) (length : Nat) : Message :=
  let m := (m.addHeader "Content-Length" (toString length)).writeText crlf
  { m with cursor := BodyCursor.declared m.cache.length length, state := .pendingBody }

def body (m : Message) : List UInt8 := m.cursor.body m.raw

def surplus (m : Message) : List UInt8 :=
  if m.state = .complete then m.cursor.surplus m.raw else []

def bodyLength (m : Message) : Nat := m.cursor.length

def isEmpty (m : Message) : Bool := m.cache.isEmpty

def isPendingHeader (m : Message) : Bool := m.state = .empty || m.state = .pendingHeader

/-- Feeds header bytes. When the block is complete it is read: `read` interprets the start line,
the header lines fill the fields (scanning `cookieHeader` for cookies), and the answer is the
start line's meaning. A block that cannot be read leaves the state `errorSet`; the search does
not move past its terminator, so feeding more bytes finds the same block again. -/
def receiveHeader {α : Type} (m : Message) (bytes : List UInt8) (cookieHeader : String)
    (read : StartLine → Except HttpError α) : Option α × Message :=
  let cache := (m.cache.write bytes).2
  let raw := cache.bytes
  match findTerminator raw m.cursor.scanFrom with
  | none =>
    let m := { m with cache, cursor := { m.cursor with scanFrom := rescanOffset cache.length } }
    (none, if cache.isEmpty then m else { m with state := .pendingHeader })
  | some t =>
    let m := { m with cache, headers := {}, cookies := {}, cursor := m.cursor.resetLength }
    let block := raw.take (t + 2)
    match parseStartLine block >>= fun line => (read line).map fun a => (line, a) with
    | .error _ => (none, { m with state := .errorSet })
    | .ok (line, a) =>
      let r := parseHeaderLines block line.next cookieHeader
      let m := { m with headers := r.2.headers, cookies := r.2.cookies }
      match r.1 with
      | .error _ => (none, { m with state := .errorSet })
      | .ok len =>
        let index := t + 4
        let cursor := { m.cursor.setContentLength len with
          index, size := cache.length - index, scanFrom := cache.length }
        (some a, { m with cursor, state := .pendingBody })

def receiveBody (m : Message) (bytes : List UInt8) (bodyless : Bool) : Bool × Message :=
  let cache := (m.cache.write bytes).2
  let r := m.cursor.feed cache.bytes bytes.length bodyless
  (r.1, { m with cache, cursor := r.2, state := if r.1 then .complete else m.state })

end Message

end Switchboard.Http
