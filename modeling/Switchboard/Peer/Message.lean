import Switchboard.Buffer
/-!
# Operation messages

A client sends operation requests; the server answers each with an operation response carrying a
return code, and may push events. Codes and request ids are 16-bit. The request with the highest
operation code is a ping.
-/
namespace Switchboard.Peer

def pingCode : Nat := 65535

/-- The outcome an operation response reports. -/
inductive ReturnCode where
  | ok | error | operationNotFound | operationInvalid | operationTimeout | notAuthorized
  | maxPendingRequest | maxRequestPerSecond | internalServerError | notConnected
  deriving Repr, DecidableEq

namespace ReturnCode

def all : List ReturnCode :=
  [.ok, .error, .operationNotFound, .operationInvalid, .operationTimeout, .notAuthorized,
   .maxPendingRequest, .maxRequestPerSecond, .internalServerError, .notConnected]

def code : ReturnCode → Nat
  | .ok => 0 | .error => 1 | .operationNotFound => 2 | .operationInvalid => 3
  | .operationTimeout => 4 | .notAuthorized => 5 | .maxPendingRequest => 6
  | .maxRequestPerSecond => 7 | .internalServerError => 8 | .notConnected => 9

def ofCode? (n : Nat) : Option ReturnCode := all[n]?

end ReturnCode

/-- How a request is to be sent: at once or at the send rate, encrypted or not, reliably or
not. -/
structure SendParameters where
  immediate : Bool := false
  encrypted : Bool := false
  reliable : Bool := true
  deriving Repr, DecidableEq

/-- An operation request. -/
structure Request where
  operationCode : Nat
  requestId : Nat := 0
  payload : List UInt8 := []
  encrypted : Bool := false
  deriving Repr, DecidableEq

def Request.isPing (r : Request) : Bool := r.operationCode == pingCode

/-- An operation response. -/
structure Response where
  operationCode : Nat
  requestId : Nat
  returnCode : ReturnCode
  debugMessage : Option String := none
  payload : List UInt8 := []
  deriving Repr, DecidableEq

namespace Response

def forRequest (r : Request) (rc : ReturnCode) : Response :=
  { operationCode := r.operationCode, requestId := r.requestId, returnCode := rc }

def withPayload (r : Response) (payload : List UInt8) : Response := { r with payload }

def withDebugMessage (r : Response) (m : String) : Response := { r with debugMessage := some m }

def isOk (r : Response) : Bool := r.returnCode == .ok

end Response

/-- An event pushed by the server. -/
structure Event where
  eventCode : Nat
  payload : List UInt8 := []
  deriving Repr, DecidableEq

/-- Any operation message. -/
inductive Message where
  | request (r : Request)
  | response (r : Response)
  | event (e : Event)
  deriving Repr, DecidableEq

/-- Why an operation-layer call failed. -/
inductive PeerError where
  | io (text : String)
  | buffer (e : ByteBuffer.RangeError)
  | codec (text : String)
  | messageTooLarge (size : Nat)
  | notConnected
  deriving Repr, DecidableEq

def PeerError.message : PeerError → String
  | .io t => s!"I/O error: {t}"
  | .buffer e => s!"Buffer error: {e.message}"
  | .codec t => s!"Codec error: {t}"
  | .messageTooLarge n => s!"Message of {n} bytes exceeds the limit"
  | .notConnected => "Not connected"

end Switchboard.Peer
