import Switchboard.Http.Message
import Switchboard.Http.Status
import Switchboard.Http.Cookie
/-!
# HTTP responses

A response is a message whose start line gives a protocol, a status code and a reason phrase. A
received status field must be one or more digits with a value below 65536. Responses with status
below 200, 204 or 304 have no body unless they declare a length.
-/
namespace Switchboard.Http

/-- An HTTP response. -/
structure Response extends Message where
  status : Nat := 0
  phrase : String := ""
  protocol : String := ""
  deriving Repr

def allowedMethods : String := "HEAD,GET,POST,PUT,DELETE,OPTIONS,TRACE"

def readStatus (line : StartLine) : Except HttpError Nat :=
  let s := line.second
  if s.isEmpty || !(s.all Char.isDigit) then .error (.invalidStatus s)
  else
    let n := s.foldl (fun acc c => acc * 10 + (c.toNat - 48)) 0
    if n ≤ 65535 then .ok n else .error (.invalidStatus s)

namespace Response

def display (r : Response) : String := s!"{r.protocol} {r.status} {r.phrase}"

def clear (r : Response) : Response := { toMessage := r.toMessage.clear }

def setBeginWith (r : Response) (status : Nat) (protocol : String) : Response :=
  let phrase := reasonPhrase status
  { toMessage := r.toMessage.clear.writeText
      (protocol ++ " " ++ toString status ++ " " ++ phrase ++ crlf),
    status, phrase, protocol }

def setBegin (r : Response) (status : Nat) : Response := r.setBeginWith status http11

def setHeader (r : Response) (name value : String) : Response :=
  { r with toMessage := r.toMessage.addHeader name value }

def setCookie (r : Response) (c : SetCookie) : Response :=
  let r := r.setHeader "Set-Cookie" c.render
  { r with cookies := r.cookies.insert c.name c.value }

def setBody (r : Response) (body : List UInt8) : Response :=
  { r with toMessage := r.toMessage.setBody body }

def setBodyLength (r : Response) (length : Nat) : Response :=
  { r with toMessage := r.toMessage.setBodyLength length }

def makeOk (r : Response) : Response := (r.setBegin 200).setBody []

def makeError (r : Response) (status : Nat) (content : String) : Response :=
  ((r.setBegin status).setHeader "Content-Type" "text/plain; charset=UTF-8").setBody (utf8 content)

def makeGet (r : Response) (content : List UInt8) (contentType : String) : Response :=
  let r := r.setBegin 200
  let r := if contentType.isEmpty then r else r.setHeader "Content-Type" contentType
  r.setBody content

def makeOptions (r : Response) : Response :=
  ((r.setBegin 200).setHeader "Allow" allowedMethods).setBody []

def makeTrace (r : Response) (request : List UInt8) : Response :=
  ((r.setBegin 200).setHeader "Content-Type" "message/http").setBody request

def receiveHeader (r : Response) (bytes : List UInt8) : Bool × Response :=
  match r.toMessage.receiveHeader bytes "Set-Cookie" fun line => (readStatus line).map (line, ·) with
  | (some (line, status), m) => (true, { toMessage := m, status, phrase := line.third,
                                          protocol := line.first })
  | (none, m) => (false, { r with toMessage := m })

def bodyless (r : Response) : Bool := r.status < 200 || r.status == 204 || r.status == 304

def receiveBody (r : Response) (bytes : List UInt8) : Bool × Response :=
  let res := r.toMessage.receiveBody bytes r.bodyless
  (res.1, { r with toMessage := res.2 })

/-- The response read from bytes given at once: the header block, then the body with no more
bytes to come. -/
def ofBytes (bytes : List UInt8) : Response :=
  match ({} : Response).receiveHeader bytes with
  | (true, r) => (r.receiveBody []).2
  | (false, r) => r

/-- One operation on a response. -/
inductive Command where
  | receiveHeader (bytes : List UInt8)
  | receiveBody (bytes : List UInt8)
  | clear
  | setBegin (status : Nat) (protocol : String)
  | setHeader (name value : String)
  | setCookie (c : SetCookie)
  | setBody (bytes : List UInt8)
  | setBodyLength (length : Nat)
  | makeOk
  | makeError (status : Nat) (content : String)
  | makeGet (content : List UInt8) (contentType : String)
  | makeOptions
  | makeTrace (request : List UInt8)

def perform (r : Response) : Command → Option Bool × Response
  | .receiveHeader b => let x := r.receiveHeader b; (some x.1, x.2)
  | .receiveBody b => let x := r.receiveBody b; (some x.1, x.2)
  | .clear => (none, r.clear)
  | .setBegin s p => (none, r.setBeginWith s p)
  | .setHeader n v => (none, r.setHeader n v)
  | .setCookie c => (none, r.setCookie c)
  | .setBody b => (none, r.setBody b)
  | .setBodyLength l => (none, r.setBodyLength l)
  | .makeOk => (none, r.makeOk)
  | .makeError s c => (none, r.makeError s c)
  | .makeGet c t => (none, r.makeGet c t)
  | .makeOptions => (none, r.makeOptions)
  | .makeTrace q => (none, r.makeTrace q)

end Response

end Switchboard.Http
