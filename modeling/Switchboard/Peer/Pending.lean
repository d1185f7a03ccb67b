import Switchboard.Peer.Message
/-!
# Pending requests

A request waiting for its response. It is marked sent once; it is resolved once, by a real
response or by a synthetic one (a failure); its callback runs at most once, and only after it is
resolved. Its round-trip time exists only for a real response to a sent request.
-/
namespace Switchboard.Peer

/-- The response that settled a request, when it came, and whether it was made up locally. -/
structure Resolution where
  response : Response
  receivedAt : Nat
  synthetic : Bool
  deriving Repr, DecidableEq

/-- A request with its send options, timeout, callback and progress. -/
structure Pending (κ : Type) where
  request : Request
  parameters : SendParameters := {}
  timeout : Nat
  callback : Option κ := none
  sentAt : Option Nat := none
  resolution : Option Resolution := none
  deriving Repr

namespace Pending

variable {κ : Type}

def markSent (p : Pending κ) (now : Nat) : Pending κ :=
  if p.sentAt.isSome then p else { p with sentAt := some now }

def hasResponse (p : Pending κ) : Bool := p.resolution.isSome

def response? (p : Pending κ) : Option Response := p.resolution.map (·.response)

def isTimedOut (p : Pending κ) (now : Nat) : Bool :=
  !p.hasResponse && p.sentAt.any fun s => p.timeout ≤ now - s

def resolve (p : Pending κ) (response : Response) (now : Nat) : Bool × Pending κ :=
  if p.hasResponse then (false, p)
  else (true, { p with resolution := some ⟨response, now, false⟩ })

def fail (p : Pending κ) (rc : ReturnCode) (message : String) (now : Nat) : Bool × Pending κ :=
  if p.hasResponse then (false, p)
  else
    let response := (Response.forRequest p.request rc).withDebugMessage message
    (true, { p with resolution := some ⟨response, now, true⟩ })

def expire (p : Pending κ) (now : Nat) : Pending κ :=
  if p.isTimedOut now then (p.fail .operationTimeout "operation timed out" now).2 else p

def rtt? (p : Pending κ) : Option Nat :=
  match p.resolution, p.sentAt with
  | some r, some s => if r.synthetic then none else some (r.receivedAt - s)
  | _, _ => none

/-- Hands out the callback with the response, once the request is settled; the callback is then
gone. -/
def invoke (p : Pending κ) : Option (κ × Response) × Pending κ :=
  match p.response?, p.callback with
  | some r, some c => (some (c, r), { p with callback := none })
  | _, _ => (none, p)

end Pending

end Switchboard.Peer
