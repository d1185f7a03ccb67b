import Switchboard.Server.Admission
import Switchboard.Server.Session
import Switchboard.Peer.FrameReader
/-!
# The operation service

A server side of the operation protocol: each session's bytes are reassembled into messages, a ping
is answered at once, and any other request passes the admission gates and its handler's lookup
before becoming a job that holds its guard until it has run. A stream that does not decode
disconnects the session.
-/
namespace Switchboard.Server

open Switchboard.Peer

/-- A request waiting for its handler, holding its admission guard. -/
structure Job (κ : Type) where
  handler : κ
  request : Request
  guard : Guard

/-- Handlers by operation code, and each session's frame reader. -/
structure OperationService (κ : Type) where
  handlers : List (Nat × κ) := []
  readers : List (Nat × FrameReader) := []

/-- What a service works on besides itself: the gates and the session. -/
structure Link where
  admission : Admission
  session : Session
  deriving Repr

namespace Link

def send (l : Link) (bytes : List UInt8) : Link := { l with session := (l.session.send bytes).2 }

def close (l : Link) : Link := { l with session := l.session.disconnect.2 }

def reply (l : Link) (m : Message) : Link := { l with session := (l.session.sendMessage m).2 }

end Link

namespace OperationService

variable {κ : Type}

def register (s : OperationService κ) (code : Nat) (h : κ) : OperationService κ :=
  { s with handlers := (s.handlers.filter (·.1 != code)) ++ [(code, h)] }

def hasHandler (s : OperationService κ) (code : Nat) : Bool := s.handlers.any (·.1 == code)

def handleRequest (s : OperationService κ) (now : Nat) (acc : Link × List (Job κ)) (q : Request) :
    Link × List (Job κ) :=
  let (l, jobs) := acc
  if q.isPing then (l.reply (.response ((Response.forRequest q .ok).withPayload q.payload)), jobs)
  else
    match l.admission.enter l.session.id now with
    | (.error r, a) => ({ l with admission := a }.reply (.response (Response.forRequest q r.returnCode)), jobs)
    | (.ok g, a) =>
      match s.handlers.lookup q.operationCode with
      | some h => ({ l with admission := a }, jobs ++ [⟨h, q, g⟩])
      | none => ({ l with admission := a.release g }.reply (.response (Response.forRequest q .operationNotFound)), jobs)

/-- Handles bytes received on the link's session at time `now`, with messages up to
`maxMessageSize` bytes. Answers the jobs left for the handlers. -/
def receive (s : OperationService κ) (l : Link) (maxMessageSize now : Nat) (data : List UInt8) :
    OperationService κ × Link × List (Job κ) :=
  let id := l.session.id
  let reader := ((s.readers.lookup id).getD { maxMessageSize }).push data
  let (results, reader) := reader.drain
  let requests := results.filterMap fun r => match r with
    | .ok (.request q) => some q
    | _ => none
  let failed := results.any fun r => match r with
    | .error _ => true
    | .ok _ => false
  let s := { s with readers := (s.readers.filter (·.1 != id)) ++ [(id, reader)] }
  let (l, jobs) := requests.foldl (s.handleRequest now) (l, [])
  if failed then
    ({ s with readers := s.readers.filter (·.1 != id) }, { l with session := l.session.disconnect.2 }, jobs)
  else (s, l, jobs)

def disconnected (s : OperationService κ) (id : Nat) : OperationService κ :=
  { s with readers := s.readers.filter (·.1 != id) }

def runJob (run : κ → Request → Option Response) (l : Link) (j : Job κ) : Link :=
  let q := j.request
  let r := match run j.handler q with
    | some r => { r with operationCode := q.operationCode, requestId := q.requestId }
    | none => Response.forRequest q .internalServerError
  let l := l.reply (.response r)
  { l with admission := l.admission.release j.guard }

end OperationService

end Switchboard.Server
