import Switchboard.Peer.Pending
import Switchboard.Peer.Transport
import Switchboard.Config.Client
/-!
# The client peer

A client peer queues requests in two queues, immediate ones first, and sends at most one per service
call, no sooner than the update interval after the last. A service call hands on received messages,
fails requests past their timeout, records round-trip times and runs the callbacks of the settled
requests, then sends a due ping and the next due request.
-/
namespace Switchboard.Peer

/-- A client peer over a transport `τ`, with callbacks described by `κ`. -/
structure ClientPeer (τ κ : Type) where
  transport : τ
  settings : ClientSettings
  nextRequestId : Nat := 0
  waiting : List (Pending κ) := []
  delayed : List (Pending κ) := []
  immediate : List (Pending κ) := []
  rttSamples : List Nat := []
  nextSendAt : Nat
  nextPingAt : Option Nat
  handlesEvents : Bool := false

def durationMax : Nat := Nat.pow 2 64 * nanosPerSecond - 1

namespace ClientPeer

variable {τ κ : Type} [Transport τ]

def create (transport : τ) (settings : ClientSettings) (now : Nat) : ClientPeer τ κ :=
  { transport, settings, nextSendAt := now, nextPingAt := settings.pingInterval.map fun _ => now }

def connected (p : ClientPeer τ κ) : Bool := Transport.connected p.transport

def disconnect (p : ClientPeer τ κ) : ClientPeer τ κ :=
  { p with transport := Transport.disconnect p.transport }

def pendingCount (p : ClientPeer τ κ) : Nat := p.waiting.length

def queuedCount (p : ClientPeer τ κ) : Nat := p.delayed.length + p.immediate.length

def hasRtt (p : ClientPeer τ κ) : Bool := !p.rttSamples.isEmpty

/-- The average of the recorded round-trip times, rounded down to the nanosecond, and `some none`
when none is recorded; `none` is a panic. The times are summed as durations, which panics past the
longest duration, and divided by their count taken as a 32-bit number, which panics when that is
zero. -/
def averageRtt? (p : ClientPeer τ κ) : Option (Option Nat) :=
  if p.rttSamples.isEmpty then some none
  else
    let total := p.rttSamples.foldl (· + ·) 0
    let count := p.rttSamples.length % Nat.pow 2 32
    if durationMax < total ∨ count = 0 then none else some (some (total / count))

def takeRequestId (p : ClientPeer τ κ) : Nat × ClientPeer τ κ :=
  (p.nextRequestId, { p with nextRequestId := (p.nextRequestId + 1) % 65536 })

def enqueue (p : ClientPeer τ κ) (request : Request) (parameters : SendParameters)
    (timeout : Option Nat) (callback : Option κ) : Except PeerError Nat × ClientPeer τ κ :=
  if !p.connected then (.error .notConnected, p)
  else
    let (id, p) := p.takeRequestId
    let pending : Pending κ :=
      { request := { request with requestId := id, encrypted := parameters.encrypted }, parameters,
        timeout := timeout.getD p.settings.defaultTimeout, callback }
    (.ok id, if parameters.immediate then { p with immediate := p.immediate ++ [pending] }
      else { p with delayed := p.delayed ++ [pending] })

def onResponse (p : ClientPeer τ κ) (response : Response) (now : Nat) : Bool × ClientPeer τ κ :=
  match p.waiting.findIdx? fun q => q.request.requestId == response.requestId && !q.hasResponse with
  | some i =>
    match p.waiting[i]? with
    | some q => let (ok, q) := q.resolve response now; (ok, { p with waiting := p.waiting.set i q })
    | none => (false, p)
  | none => (false, p)

def onEvent (p : ClientPeer τ κ) (e : Event) : List Event := if p.handlesEvents then [e] else []

def addRttSample (p : ClientPeer τ κ) (rtt : Nat) : ClientPeer τ κ :=
  let samples := p.rttSamples ++ [rtt]
  { p with rttSamples := samples.drop (samples.length - max p.settings.maxRttSamples 1) }

/-- Marks a request sent, hands it to the transport and makes it wait; a failed send settles it
with an error. -/
def transmit (p : ClientPeer τ κ) (q : Pending κ) (now : Nat) : ClientPeer τ κ :=
  let q := q.markSent now
  let (failure, transport) := Transport.send p.transport (.request q.request)
  let q := match failure with
    | some e => (q.fail .error e.message now).2
    | none => q
  { p with transport, waiting := p.waiting ++ [q] }

def pingIfDue (p : ClientPeer τ κ) (now : Nat) : ClientPeer τ κ :=
  match p.settings.pingInterval, p.nextPingAt with
  | some interval, some due =>
    if due ≤ now then
      let p := { p with nextPingAt := some (now + interval) }
      let (id, p) := p.takeRequestId
      p.transmit { request := { operationCode := pingCode, requestId := id },
                   parameters := { immediate := true }, timeout := p.settings.defaultTimeout } now
    else p
  | _, _ => p

def sendIfDue (p : ClientPeer τ κ) (now : Nat) : ClientPeer τ κ :=
  if p.nextSendAt ≤ now then
    let next := now + p.settings.updateInterval
    match p.immediate, p.delayed with
    | q :: rest, _ => { p with immediate := rest, nextSendAt := next }.transmit q now
    | [], q :: rest => { p with delayed := rest, nextSendAt := next }.transmit q now
    | [], [] => p
  else p

/-- Hands on one received message: a response to the waiting requests, an event to the event
handler. A request from the server is ignored. -/
def dispatch (now : Nat) (acc : ClientPeer τ κ × List Event) : Message → ClientPeer τ κ × List Event
  | .response r => ((acc.1.onResponse r now).2, acc.2)
  | .event e => (acc.1, acc.2 ++ acc.1.onEvent e)
  | .request _ => acc

def expire (p : ClientPeer τ κ) (now : Nat) : ClientPeer τ κ :=
  { p with waiting := p.waiting.map (·.expire now) }

def recordRtt (p : ClientPeer τ κ) (q : Pending κ) : ClientPeer τ κ :=
  match q.rtt? with
  | some r => p.addRttSample r
  | none => p

/-- For a settled request: records its round-trip time and runs its callback through `run`, which
may queue requests on the peer it is given and reports what it produced. -/
def conclude {ρ : Type} (run : κ → Response → ClientPeer τ κ → ClientPeer τ κ × List ρ)
    (acc : ClientPeer τ κ × List ρ) (q : Pending κ) : ClientPeer τ κ × List ρ :=
  if q.hasResponse then
    let p := acc.1.recordRtt q
    match q.invoke.1 with
    | some (c, r) => let (p, out) := run c r p; (p, acc.2 ++ out)
    | none => (p, acc.2)
  else acc

def dropSettled (p : ClientPeer τ κ) (snapshot : List (Pending κ)) : ClientPeer τ κ :=
  let settled := fun (i : Nat) => match snapshot[i]? with
    | some s => s.hasResponse
    | none => false
  { p with waiting := (p.waiting.zipIdx.filter fun (e : Pending κ × Nat) => !settled e.2).map Prod.fst }

/-- One service call at time `now`. `run` performs a callback with its response; it may queue
requests on the peer it is given, and reports what it produced. Answers the events handed to the
event handler and what the callbacks produced, in order. -/
def service {ρ : Type} (p : ClientPeer τ κ) (now : Nat)
    (run : κ → Response → ClientPeer τ κ → ClientPeer τ κ × List ρ) :
    ClientPeer τ κ × List Event × List ρ :=
  let drained := Transport.drain p.transport
  let received := drained.1.foldl (dispatch now) ({ p with transport := drained.2 }, [])
  let p := received.1.expire now
  let snapshot := p.waiting
  let concluded := snapshot.foldl (conclude run) (p, [])
  let p := concluded.1.dropSettled snapshot
  if !p.connected then (p, received.2, concluded.2)
  else ((p.pingIfDue now).sendIfDue now, received.2, concluded.2)

end ClientPeer

end Switchboard.Peer
