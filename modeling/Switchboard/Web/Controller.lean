import Switchboard.Web.Router
import Switchboard.Web.StaticContent
import Switchboard.Server.Operations
import Switchboard.Server.Fiber
import Switchboard.Http.Request
/-!
# The web controller

The server side of a web API. A `GET` that static content serves is answered at once; any other
request passes the admission gates (a rejection answered with `429`) and becomes a job on the
session's worker that answers as its route says and holds its guard until it has run. A request
with `Connection: close` closes the session after its answer, and one that could not be read is
answered with `400`.
-/
namespace Switchboard.Web

open Switchboard.Http
open Switchboard.Server

/-- A routed request waiting for its handler, holding its admission guard. -/
structure WebJob (κ : Type) where
  resolution : Resolution κ
  request : Request
  guard : Guard
  close : Bool

/-- Routes and static content. -/
structure Controller (κ : Type) where
  router : Router κ := {}
  staticContent : StaticContent := {}

def wantsClose (r : Request) : Bool := (r.headers.get? "Connection").any (Ascii.eqFold · "close")

namespace Controller

variable {κ : Type}

def receive (c : Controller κ) (l : Link) (now : Nat) (request : Request) : Link × Option (WebJob κ) :=
  let close := wantsClose request
  let served := if request.method == "GET" then c.staticContent.get? request.url else none
  match served with
  | some wire =>
    let l := l.send wire
    (if close then l.close else l, none)
  | none =>
    match l.admission.enter l.session.id now with
    | (.error r, a) => ({ l with admission := a }.send (({} : Response).makeError 429 r.message).raw, none)
    | (.ok g, a) =>
      ({ l with admission := a }, some ⟨c.router.resolve request.method request.url, request, g, close⟩)

/-- Handles a complete request on the connection's thread, as `receive` does, and queues a routed
request's job on the session's worker of the received fiber. A job the fiber refuses is dropped,
and its guard given back. -/
def onReceived (c : Controller κ) (fiber : Fiber (WebJob κ)) (l : Link) (now : Nat) (request : Request) :
    Fiber (WebJob κ) × Link :=
  match c.receive l now request with
  | (l, some job) =>
    match fiber.enqueueKeyed l.session.id job with
    | (true, fiber) => (fiber, l)
    | (false, fiber) => (fiber, { l with admission := l.admission.release job.guard })
  | (l, none) => (fiber, l)

def dispatch (run : κ → Request → Option Response) (request : Request) : Resolution κ → Response
  | .found h => (run h request).getD (({} : Response).makeError 500 "Internal Server Error")
  | .methodNotAllowed allowed =>
    let names := allowed.map (·.name)
    if request.method == "OPTIONS" then
      ((({} : Response).setBegin 200).setHeader "Allow" (", ".intercalate (names ++ ["OPTIONS"]))).setBody []
    else
      (((({} : Response).setBegin 405).setHeader "Allow" (", ".intercalate names)).setHeader "Content-Type"
        "text/plain; charset=UTF-8").setBody (utf8 "Method Not Allowed")
  | .notFound =>
    if request.method == "OPTIONS" then ({} : Response).makeOptions
    else if request.method == "TRACE" then
      ({} : Response).makeTrace (request.raw.take (request.raw.length - request.surplus.length))
    else ({} : Response).makeError 404 "Not Found"

def runJob (run : κ → Request → Option Response) (l : Link) (j : WebJob κ) : Link :=
  let l := l.send (dispatch run j.request j.resolution).raw
  let l := if j.close then l.close else l
  { l with admission := l.admission.release j.guard }

def requestError (l : Link) (error : String) : Link :=
  let r := (((({} : Response).setBegin 400).setHeader "Connection" "close").setHeader "Content-Type"
    "text/plain; charset=UTF-8").setBody (utf8 error)
  (l.send r.raw).close

end Controller

end Switchboard.Web
