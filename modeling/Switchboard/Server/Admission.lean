import Switchboard.Config.Settings
import Switchboard.Peer.Message
/-!
# Request admission

Three gates stand before a request: the server's pending requests, the session's requests in the
current one-second window, and the session's pending requests, a limit of zero opening its gate.
An admitted request holds a guard that gives both pending places back when released, to the tally
it was counted in even after its session was forgotten.
-/
namespace Switchboard.Server

open Switchboard.Peer

/-- Why a request was turned away. -/
inductive Rejection where
  | serverPending
  | sessionRate
  | sessionPending
  deriving DecidableEq, Repr

namespace Rejection

def returnCode : Rejection → ReturnCode
  | .sessionRate => .maxRequestPerSecond
  | _ => .maxPendingRequest

def message : Rejection → String
  | .serverPending => "server pending request limit reached"
  | .sessionRate => "session request rate limit reached"
  | .sessionPending => "session pending request limit reached"

end Rejection

/-- The three limits; zero turns a gate off. Rates are per window of `window` nanoseconds. -/
structure Limits where
  maxPending : Nat := 0
  maxSessionPending : Nat := 0
  maxSessionRate : Nat := 0
  window : Nat := nanosPerSecond
  deriving Repr

/-- One session's counts: the start of its rate window, the requests seen in it, and its pending
requests. -/
structure Tally where
  windowStart : Nat
  seen : Nat := 0
  pending : Nat := 0
  deriving Repr

/-- A place held by an admitted request: the number of the tally it was counted in. -/
structure Guard where
  tally : Nat
  deriving DecidableEq, Repr

/-- The gates of one server. Tallies are numbered in the order they were made. -/
structure Admission where
  limits : Limits
  pending : Nat := 0
  tallies : List Tally := []
  sessions : List (Nat × Nat) := []
  deriving Repr

namespace Admission

def ofSettings (s : ServerSettings) : Admission :=
  { limits := { maxPending := s.maxPendingRequest, maxSessionPending := s.maxSessionPendingRequest,
                maxSessionRate := s.maxSessionRequestPerSecond } }

def tallyOf? (a : Admission) (session : Nat) : Option Nat := a.sessions.lookup session

def modifyTally (a : Admission) (i : Nat) (f : Tally → Tally) : Admission :=
  { a with tallies := a.tallies.modify i f }

/-- Counts one request in the tally's window at time `now`; a window `window` long or older
restarts at `now`. Answers whether the request fits the rate. -/
def Tally.tick (t : Tally) (now window limit : Nat) : Bool × Tally :=
  let t := if window ≤ now - t.windowStart then { t with windowStart := now, seen := 0 } else t
  let t := { t with seen := t.seen + 1 }
  (limit == 0 || t.seen ≤ limit, t)

def enter (a : Admission) (session now : Nat) : Except Rejection Guard × Admission :=
  let l := a.limits
  if 0 < l.maxPending && l.maxPending ≤ a.pending then (.error .serverPending, a)
  else
    let (i, a) : Nat × Admission := match a.tallyOf? session with
      | some i => (i, a)
      | none => (a.tallies.length,
          { a with tallies := a.tallies ++ [{ windowStart := now }],
                   sessions := a.sessions ++ [(session, a.tallies.length)] })
    let t := a.tallies.getD i { windowStart := now }
    let (fits, t) := Tally.tick t now l.window l.maxSessionRate
    let a := a.modifyTally i fun _ => t
    if !fits then (.error .sessionRate, a)
    else if 0 < l.maxSessionPending && l.maxSessionPending ≤ t.pending then (.error .sessionPending, a)
    else
      (.ok ⟨i⟩, { a.modifyTally i (fun t => { t with pending := t.pending + 1 }) with
                  pending := a.pending + 1 })

def release (a : Admission) (g : Guard) : Admission :=
  { a.modifyTally g.tally (fun t => { t with pending := t.pending - 1 }) with pending := a.pending - 1 }

def removeSession (a : Admission) (session : Nat) : Admission :=
  { a with sessions := a.sessions.filter (·.1 != session) }

def sessionPending (a : Admission) (session : Nat) : Nat :=
  match a.tallyOf? session with
  | some i => (a.tallies.getD i { windowStart := 0 }).pending
  | none => 0

def sessionCount (a : Admission) : Nat := a.sessions.length

end Admission

end Switchboard.Server

namespace Switchboard.Server

/-- A caller of the gates that keeps the guards it was given, numbered in order, and the sessions
it has asked for. -/
structure Holder where
  admission : Admission
  guards : List (Option Guard) := []
  seen : List Nat := []
  deriving Repr

/-- What a holder can do. -/
inductive Holder.Command where
  | enter (session now : Nat) (keep : Bool)
  | release (guard : Nat)
  | removeSession (session : Nat)
  deriving Repr

/-- What a holder gets back: the number of a kept guard (none when it was given back at once), a
rejection, whether a guard was released, or nothing. -/
inductive Holder.Reply where
  | entered (guard : Option Nat)
  | rejected (r : Rejection)
  | released (held : Bool)
  | done
  deriving Repr

namespace Holder

def perform (h : Holder) : Command → Reply × Holder
  | .enter session now keep =>
    let h := { h with seen := if h.seen.contains session then h.seen else h.seen ++ [session] }
    match h.admission.enter session now with
    | (.error r, a) => (.rejected r, { h with admission := a })
    | (.ok g, a) =>
      if keep then (.entered (some h.guards.length), { h with admission := a, guards := h.guards ++ [some g] })
      else (.entered none, { h with admission := a.release g })
  | .release i =>
    match h.guards.getD i none with
    | some g => (.released true, { h with admission := h.admission.release g, guards := h.guards.set i none })
    | none => (.released false, h)
  | .removeSession s => (.done, { h with admission := h.admission.removeSession s })

def sessionPending (h : Holder) : List (Nat × Nat) :=
  (h.seen.mergeSort (· ≤ ·)).map fun s => (s, h.admission.sessionPending s)

end Holder

end Switchboard.Server
