import Switchboard.Proofs.Peer.Service
/-!
# A client peer on a test bench

One client peer over an in-memory transport, the `Recorder`, which keeps a virtual clock and a
journal of sends, deliveries and callbacks. The `Action`s are what callers, the server and the
network can do, in any order.
-/
namespace Switchboard.Peer

/-- A callback, known by the request it waits on, as the peer stamps it, and that request's
timeout. -/
structure Ticket where
  request : Request
  timeout : Nat
  deriving Repr, DecidableEq

def Pending.ticket {κ : Type} (q : Pending κ) : Ticket := ⟨q.request, q.timeout⟩

theorem Pending.Replied.ticket_eq {rs : List Response} {now : Nat} {q q' : Pending Ticket}
    (h : Pending.Replied rs now q q') : q'.ticket = q.ticket := by
  rcases h with rfl | ⟨-, -, -, -, rfl⟩ <;> rfl

theorem Pending.ticket_expire (q : Pending Ticket) (now : Nat) : (q.expire now).ticket = q.ticket := by
  rcases Pending.expire_cases q now with same | ⟨-, -, -, -, expired⟩ <;> simp [*, Pending.ticket]

/-- An entry of the journal. -/
inductive Seen where
  /-- A message was handed to the transport at `now`; `failure` says why it did not go out. -/
  | sent (now : Nat) (m : Message) (failure : Option PeerError)
  /-- A message was handed to the peer. -/
  | received (m : Message)
  /-- A caller queued a request with the callback `t`. -/
  | registered (t : Ticket)
  /-- The callback `t` ran at `now` with the response `r`. -/
  | called (now : Nat) (t : Ticket) (r : Response)

namespace Seen

def call? : Seen → Option Ticket
  | .sent .. => none
  | .received _ => none
  | .registered _ => none
  | .called _ t _ => some t

def registration? : Seen → Option Ticket
  | .sent .. => none
  | .received _ => none
  | .registered t => some t
  | .called .. => none

def calls (J : List Seen) : List Ticket := J.filterMap call?

def registrations (J : List Seen) : List Ticket := J.filterMap registration?

@[simp] theorem calls_append (J J' : List Seen) : calls (J ++ J') = calls J ++ calls J' :=
  List.filterMap_append

@[simp] theorem registrations_append (J J' : List Seen) :
    registrations (J ++ J') = registrations J ++ registrations J' :=
  List.filterMap_append

@[simp] theorem calls_nil : calls [] = [] := rfl

@[simp] theorem registrations_nil : registrations [] = [] := rfl

@[simp] theorem calls_cons (s : Seen) (J : List Seen) : calls (s :: J) = s.call?.toList ++ calls J := by
  cases s <;> rfl

@[simp] theorem registrations_cons (s : Seen) (J : List Seen) :
    registrations (s :: J) = s.registration?.toList ++ registrations J := by
  cases s <;> rfl

theorem mem_calls {J : List Seen} {now : Nat} {t : Ticket} {r : Response} (mem : called now t r ∈ J) :
    t ∈ calls J :=
  List.mem_filterMap.2 ⟨_, mem, rfl⟩

@[simp] theorem calls_map_received (ms : List Message) : calls (ms.map received) = [] := by
  induction ms <;> simp [*, call?]

@[simp] theorem registrations_map_received (ms : List Message) : registrations (ms.map received) = [] := by
  induction ms <;> simp [*, registration?]

@[simp] theorem calls_map_registered {α : Type} (l : List α) (f : α → Ticket) :
    calls (l.map fun a => .registered (f a)) = [] := by
  induction l <;> simp [*, call?]

@[simp] theorem registrations_map_registered {α : Type} (l : List α) (f : α → Ticket) :
    registrations (l.map fun a => .registered (f a)) = l.map f := by
  induction l <;> simp [*, registration?]

end Seen

/-- A transport held in memory, with a virtual clock and a journal. While it is broken every send
fails as on a broken pipe. -/
structure Recorder where
  connected : Bool := true
  broken : Bool := false
  incoming : List Message := []
  clock : Nat := 0
  journal : List Seen := []

namespace Recorder

def note (l : Recorder) (s : Seen) : Recorder := { l with journal := l.journal ++ [s] }

def failure (l : Recorder) : Option PeerError := if l.broken then some (.io "broken pipe") else none

instance : Transport Recorder where
  connected l := l.connected
  send l m := (l.failure, l.note (.sent l.clock m l.failure))
  drain l := (l.incoming, { l with incoming := [], journal := l.journal ++ l.incoming.map .received })
  disconnect l := { l with connected := false }

@[simp] theorem clock_note (l : Recorder) (s : Seen) : (l.note s).clock = l.clock := rfl

@[simp] theorem journal_note (l : Recorder) (s : Seen) : (l.note s).journal = l.journal ++ [s] := rfl

theorem send_eq (l : Recorder) (m : Message) :
    Transport.send l m = (l.failure, l.note (.sent l.clock m l.failure)) := rfl

theorem drain_eq (l : Recorder) :
    Transport.drain l = (l.incoming, { l with incoming := [], journal := l.journal ++ l.incoming.map .received }) :=
  rfl

end Recorder

/-- A request as a caller hands it over, with its send options and timeout. -/
structure Submission where
  request : Request
  parameters : SendParameters := {}
  timeout : Option Nat := none

/-- The ticket a submission gets from `p`: the request with the id `p` gives out next and the
encryption asked for, and the timeout asked for or the default one. -/
def Submission.ticket {τ κ : Type} (s : Submission) (p : ClientPeer τ κ) : Ticket :=
  ⟨{ s.request with requestId := p.nextRequestId, encrypted := s.parameters.encrypted },
    s.timeout.getD p.settings.defaultTimeout⟩

/-- A request a caller has just queued: not sent, open, and with its own ticket as the
callback. -/
structure Pending.Fresh (q : Pending Ticket) : Prop where
  unsent : q.sentAt = none
  unsettled : q.resolution = none
  ticketed : q.callback = some q.ticket

namespace ClientPeer

def note {κ : Type} (p : ClientPeer Recorder κ) (s : Seen) : ClientPeer Recorder κ :=
  { p with transport := p.transport.note s }

/-- A caller queues a request with its ticket as the callback; the journal notes the ticket once
the peer has taken the request. -/
def submit (p : ClientPeer Recorder Ticket) (s : Submission) : ClientPeer Recorder Ticket :=
  match p.enqueue s.request s.parameters s.timeout (some (s.ticket p)) with
  | (.ok _, p') => p'.note (.registered (s.ticket p))
  | (.error _, p') => p'

/-- Runs the callback `t` with the response `r`: notes the answer at the clock, then queues what
the script asks for. -/
def answer (script : Ticket → Response → List Submission) (t : Ticket) (r : Response)
    (p : ClientPeer Recorder Ticket) : ClientPeer Recorder Ticket × List Unit :=
  ((script t r).foldl submit (p.note (.called p.transport.clock t r)), [])

theorem submit_cases (p : ClientPeer Recorder Ticket) (s : Submission) :
    p.submit s = p ∨ ∃ q : Pending Ticket, q.Fresh ∧ (p.submit s).waiting = p.waiting ∧
      (p.submit s).queued.Perm (p.queued ++ [q]) ∧
      (p.submit s).transport = p.transport.note (.registered q.ticket) := by
  unfold submit enqueue
  cases p.connected
  · simp
  · let q : Pending Ticket :=
      { request := (s.ticket p).request, parameters := s.parameters, timeout := (s.ticket p).timeout,
        callback := some (s.ticket p) }
    refine Or.inr ⟨q, ⟨rfl, rfl, rfl⟩, ?_⟩
    cases s.parameters.immediate
    · simp [takeRequestId, queued, note, q, Submission.ticket, Pending.ticket]
    · simp [takeRequestId, queued, note, q, Submission.ticket, Pending.ticket]
      rw [← List.append_assoc]
      exact List.perm_middle.trans (List.perm_append_singleton _ _).symm

theorem foldl_submit (ss : List Submission) (p : ClientPeer Recorder Ticket) :
    ∃ qs : List (Pending Ticket), (∀ q ∈ qs, q.Fresh) ∧ (ss.foldl submit p).waiting = p.waiting ∧
      (ss.foldl submit p).queued.Perm (p.queued ++ qs) ∧
      (ss.foldl submit p).transport =
        { p.transport with journal := p.transport.journal ++ qs.map fun q => .registered q.ticket } := by
  induction ss generalizing p with
  | nil => exact ⟨[], by simp, rfl, by simp, by simp⟩
  | cons s ss ih =>
    obtain ⟨qs, fresh, waiting, queued, transport⟩ := ih (p.submit s)
    rw [List.foldl_cons]
    rcases submit_cases p s with same | ⟨q, fresh₁, waiting₁, queued₁, transport₁⟩
    · rw [same] at waiting queued transport ⊢
      exact ⟨qs, fresh, waiting, queued, transport⟩
    · refine ⟨q :: qs, ?_, by rw [waiting, waiting₁], ?_, ?_⟩
      · simpa [fresh₁] using fresh
      · exact queued.trans (by simpa using queued₁.append_right qs)
      · rw [transport, transport₁]
        simp [Recorder.note]

theorem answer_spec (script : Ticket → Response → List Submission) (t : Ticket) (r : Response)
    (p : ClientPeer Recorder Ticket) :
    ∃ qs : List (Pending Ticket), (∀ q ∈ qs, q.Fresh) ∧ (answer script t r p).1.waiting = p.waiting ∧
      (answer script t r p).1.queued.Perm (p.queued ++ qs) ∧
      (answer script t r p).1.transport = { p.transport with
        journal := p.transport.journal ++ .called p.transport.clock t r :: qs.map fun q => .registered q.ticket } := by
  obtain ⟨qs, fresh, waiting, queued, transport⟩ := foldl_submit (script t r) (p.note (.called p.transport.clock t r))
  refine ⟨qs, fresh, waiting, queued, ?_⟩
  rw [answer, transport]
  simp [note, Recorder.note]

theorem transport_transmit_recorder {κ : Type} (p : ClientPeer Recorder κ) (q : Pending κ) (now : Nat) :
    (p.transmit q now).transport =
      p.transport.note (.sent p.transport.clock (.request q.request) p.transport.failure) := by
  rw [transport_transmit, Recorder.send_eq]

def onBench (settings : ClientSettings) : ClientPeer Recorder Ticket := create {} settings 0

end ClientPeer

/-- What callers, the server and the network can do to a peer on the bench. -/
inductive Action where
  /-- A caller queues a request. -/
  | send (s : Submission)
  /-- A response is handed to the peer directly, at the instant `now`. -/
  | respond (r : Response) (now : Nat)
  /-- A message reaches the transport. -/
  | arrive (m : Message)
  /-- Sends start or stop failing. -/
  | failSends (broken : Bool)
  /-- The transport is disconnected. -/
  | disconnect
  /-- The peer is serviced `wait` after the previous service call. -/
  | service (wait : Nat)

namespace Action

def perform (script : Ticket → Response → List Submission) :
    Action → ClientPeer Recorder Ticket → ClientPeer Recorder Ticket
  | .send s, p => p.submit s
  | .respond r now, p => ((p.note (.received (.response r))).onResponse r now).2
  | .arrive m, p => { p with transport := { p.transport with incoming := p.transport.incoming ++ [m] } }
  | .failSends broken, p => { p with transport := { p.transport with broken } }
  | .disconnect, p => p.disconnect
  | .service wait, p =>
    let now := p.transport.clock + wait
    ({ p with transport := { p.transport with clock := now } }.service now (ClientPeer.answer script)).1

def run (script : Ticket → Response → List Submission) (actions : List Action)
    (p : ClientPeer Recorder Ticket) : ClientPeer Recorder Ticket :=
  actions.foldl (fun p a => a.perform script p) p

end Action

end Switchboard.Peer
