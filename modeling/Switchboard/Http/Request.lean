import Switchboard.Http.Message
import Switchboard.Http.Method
/-!
# HTTP requests

A request is a message whose start line names a method, a target and a protocol. It is either
composed (start line, headers, cookies, body) or received piece by piece. A received request has
a body only when it declares a length or its method is not one of the bodyless ones; otherwise it
ends at a CR LF CR LF after the body.
-/
namespace Switchboard.Http

/-- An HTTP request. -/
structure Request extends Message where
  method : String := ""
  url : String := ""
  protocol : String := ""
  deriving Repr

namespace Request

def methodKind (r : Request) : Option Method := Method.ofName? r.method

def display (r : Request) : String := s!"{r.method} {r.url} {r.protocol}"

def clear (r : Request) : Request := { toMessage := r.toMessage.clear }

def setBegin (r : Request) (method url : String) : Request :=
  { toMessage := r.toMessage.clear.writeText (method ++ " " ++ url ++ " " ++ http11 ++ crlf),
    method, url, protocol := http11 }

def setHeader (r : Request) (name value : String) : Request :=
  { r with toMessage := r.toMessage.addHeader name value }

def setCookie (r : Request) (name value : String) : Request :=
  let r := r.setHeader "Cookie" (name ++ "=" ++ value)
  { r with cookies := r.cookies.insert name value }

def setBody (r : Request) (body : List UInt8) : Request :=
  { r with toMessage := r.toMessage.setBody body }

def setBodyLength (r : Request) (length : Nat) : Request :=
  { r with toMessage := r.toMessage.setBodyLength length }

def make (r : Request) (method : Method) (url : String) : Request :=
  (r.setBegin method.name url).setBody []

def makeContent (r : Request) (method : Method) (url : String) (content : List UInt8)
    (contentType : String) : Request :=
  let r := r.setBegin method.name url
  let r := if contentType.isEmpty then r else r.setHeader "Content-Type" contentType
  r.setBody content

def receiveHeader (r : Request) (bytes : List UInt8) : Bool × Request :=
  match r.toMessage.receiveHeader bytes "Cookie" Except.ok with
  | (some line, m) => (true, { toMessage := m, method := line.first, url := line.second,
                               protocol := line.third })
  | (none, m) => (false, { r with toMessage := m })

def receiveBody (r : Request) (bytes : List UInt8) : Bool × Request :=
  let bodyless := r.methodKind.any Method.bodyless
  let res := r.toMessage.receiveBody bytes bodyless
  (res.1, { r with toMessage := res.2 })

/-- The request read from bytes given at once: the header block, then the body with no more
bytes to come. -/
def ofBytes (bytes : List UInt8) : Request :=
  match ({} : Request).receiveHeader bytes with
  | (true, r) => (r.receiveBody []).2
  | (false, r) => r

/-- One operation on a request. -/
inductive Command where
  | receiveHeader (bytes : List UInt8)
  | receiveBody (bytes : List UInt8)
  | clear
  | setBegin (method url : String)
  | setHeader (name value : String)
  | setCookie (name value : String)
  | setBody (bytes : List UInt8)
  | setBodyLength (length : Nat)
  | make (method : Method) (url : String)
  | makeContent (method : Method) (url : String) (content : List UInt8) (contentType : String)

def perform (r : Request) : Command → Option Bool × Request
  | .receiveHeader b => let x := r.receiveHeader b; (some x.1, x.2)
  | .receiveBody b => let x := r.receiveBody b; (some x.1, x.2)
  | .clear => (none, r.clear)
  | .setBegin m u => (none, r.setBegin m u)
  | .setHeader n v => (none, r.setHeader n v)
  | .setCookie n v => (none, r.setCookie n v)
  | .setBody b => (none, r.setBody b)
  | .setBodyLength l => (none, r.setBodyLength l)
  | .make m u => (none, r.make m u)
  | .makeContent m u c t => (none, r.makeContent m u c t)

end Request

end Switchboard.Http
