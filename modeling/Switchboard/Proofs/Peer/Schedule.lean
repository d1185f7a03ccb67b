import Mathlib
import Switchboard.Proofs.Peer.Bench
/-!
# The send schedule of a client peer

Each service call on the bench leaves a `Tick`: its instant, the queue it sent from and what it
sent. The invariant `Schedule` ties the ticks to the peer, and from it requests go out once, in
order within their class, and spaced by the update interval
(`requests_go_out_once_in_order_and_spaced`).
-/
namespace Switchboard.Peer

namespace ClientPeer

variable {τ κ : Type} [Transport τ]

/-- A service call up to its sends: received messages handed on, timeouts applied, callbacks run
and settled requests dropped. -/
def settled {ρ : Type} (p : ClientPeer τ κ) (now : Nat)
    (run : κ → Response → ClientPeer τ κ → ClientPeer τ κ × List ρ) : ClientPeer τ κ :=
  let drained := Transport.drain p.transport
  let received := drained.1.foldl (dispatch now) ({ p with transport := drained.2 }, [])
  let p := received.1.expire now
  let concluded := p.waiting.foldl (conclude run) (p, [])
  concluded.1.dropSettled p.waiting

def flush (p : ClientPeer τ κ) (now : Nat) : ClientPeer τ κ :=
  if !p.connected then p else (p.pingIfDue now).sendIfDue now

theorem service_fst {ρ : Type} (p : ClientPeer τ κ) (now : Nat)
    (run : κ → Response → ClientPeer τ κ → ClientPeer τ κ × List ρ) :
    (p.service now run).1 = (p.settled now run).flush now := by
  unfold service settled flush
  dsimp only
  split <;> rfl

def duePing? (p : ClientPeer τ κ) (now : Nat) : Option Request :=
  match p.settings.pingInterval, p.nextPingAt with
  | some _, some due => if due ≤ now then some { operationCode := pingCode, requestId := p.nextRequestId }
    else none
  | _, _ => none

def dueRequest? (p : ClientPeer τ κ) (now : Nat) : Option (Pending κ) :=
  if p.nextSendAt ≤ now then p.queued.head? else none

@[simp] theorem immediate_transmit (p : ClientPeer τ κ) (q : Pending κ) (now : Nat) :
    (p.transmit q now).immediate = p.immediate := rfl

@[simp] theorem delayed_transmit (p : ClientPeer τ κ) (q : Pending κ) (now : Nat) :
    (p.transmit q now).delayed = p.delayed := rfl

@[simp] theorem settings_transmit (p : ClientPeer τ κ) (q : Pending κ) (now : Nat) :
    (p.transmit q now).settings = p.settings := rfl

@[simp] theorem nextSendAt_transmit (p : ClientPeer τ κ) (q : Pending κ) (now : Nat) :
    (p.transmit q now).nextSendAt = p.nextSendAt := rfl

@[simp] theorem nextPingAt_transmit (p : ClientPeer τ κ) (q : Pending κ) (now : Nat) :
    (p.transmit q now).nextPingAt = p.nextPingAt := rfl

theorem pingIfDue_of_none {p : ClientPeer τ κ} {now : Nat} (none_due : p.duePing? now = none) :
    p.pingIfDue now = p := by
  unfold duePing? at none_due
  unfold pingIfDue
  split
  · simp_all
  · rfl

theorem pingIfDue_of_some {p : ClientPeer τ κ} {now : Nat} {r : Request} (due : p.duePing? now = some r) :
    ∃ i, p.settings.pingInterval = some i ∧
      p.pingIfDue now = { p with nextPingAt := some (now + i),
                                 nextRequestId := (p.nextRequestId + 1) % 65536 }.transmit
        { request := r, parameters := { immediate := true }, timeout := p.settings.defaultTimeout } now := by
  unfold duePing? at due
  split at due
  next i atPing interval scheduled =>
    split at due
    · cases due
      refine ⟨i, interval, ?_⟩
      unfold pingIfDue
      simp only [interval, scheduled, if_pos ‹atPing ≤ now›]
      rfl
    · cases due
  · cases due

theorem sendIfDue_of_none {p : ClientPeer τ κ} {now : Nat} (none_due : p.dueRequest? now = none) :
    p.sendIfDue now = p := by
  unfold dueRequest? at none_due
  unfold sendIfDue
  split
  · have empty : p.immediate = [] ∧ p.delayed = [] := by simpa [*, queued] using none_due
    simp [empty]
  · rfl

theorem sendIfDue_of_some {p : ClientPeer τ κ} {now : Nat} {q : Pending κ}
    (due : p.dueRequest? now = some q) :
    p.sendIfDue now = { p with immediate := p.immediate.tail,
                               delayed := if p.immediate = [] then p.delayed.tail else p.delayed,
                               nextSendAt := now + p.settings.updateInterval }.transmit q now := by
  unfold dueRequest? at due
  unfold sendIfDue
  split at due
  next passed =>
    simp only [if_pos passed]
    cases immediate : p.immediate with
    | cons q' rest =>
      simp only [queued, immediate, List.cons_append, List.head?_cons, Option.some.injEq] at due
      subst due
      simp
    | nil =>
      cases delayed : p.delayed with
      | cons q' rest =>
        simp only [queued, immediate, delayed, List.nil_append, List.head?_cons, Option.some.injEq] at due
        subst due
        simp
      | nil => simp [queued, immediate, delayed] at due
  · cases due

section Fields

variable {p : ClientPeer τ κ} {now : Nat}

theorem pingIfDue_due_cases (p : ClientPeer τ κ) (now : Nat) :
    (p.duePing? now = none ∧ p.pingIfDue now = p) ∨ ∃ r i, p.duePing? now = some r ∧
      p.settings.pingInterval = some i ∧
      p.pingIfDue now = { p with nextPingAt := some (now + i),
                                 nextRequestId := (p.nextRequestId + 1) % 65536 }.transmit
        { request := r, parameters := { immediate := true }, timeout := p.settings.defaultTimeout } now := by
  cases due : p.duePing? now with
  | none => exact Or.inl ⟨rfl, pingIfDue_of_none due⟩
  | some r =>
    obtain ⟨i, interval, eq⟩ := pingIfDue_of_some due
    exact Or.inr ⟨r, i, rfl, interval, eq⟩

@[simp] theorem immediate_pingIfDue : (p.pingIfDue now).immediate = p.immediate := by
  rcases pingIfDue_due_cases p now with ⟨-, same⟩ | ⟨r, i, -, -, eq⟩ <;> simp [*]

@[simp] theorem delayed_pingIfDue : (p.pingIfDue now).delayed = p.delayed := by
  rcases pingIfDue_due_cases p now with ⟨-, same⟩ | ⟨r, i, -, -, eq⟩ <;> simp [*]

@[simp] theorem settings_pingIfDue : (p.pingIfDue now).settings = p.settings := by
  rcases pingIfDue_due_cases p now with ⟨-, same⟩ | ⟨r, i, -, -, eq⟩ <;> simp [*]

@[simp] theorem nextSendAt_pingIfDue : (p.pingIfDue now).nextSendAt = p.nextSendAt := by
  rcases pingIfDue_due_cases p now with ⟨-, same⟩ | ⟨r, i, -, -, eq⟩ <;> simp [*]

/-- A ping leaves the request schedule alone. -/
@[simp] theorem dueRequest?_pingIfDue : (p.pingIfDue now).dueRequest? now = p.dueRequest? now := by
  simp [dueRequest?, queued]

theorem nextPingAt_pingIfDue :
    (p.pingIfDue now).nextPingAt =
      if (p.duePing? now).isSome then p.settings.pingInterval.map (now + ·) else p.nextPingAt := by
  rcases pingIfDue_due_cases p now with ⟨none_due, same⟩ | ⟨r, i, due, interval, eq⟩
  · simp [none_due, same]
  · simp [due, interval, eq]

theorem sendIfDue_due_cases (p : ClientPeer τ κ) (now : Nat) :
    (p.dueRequest? now = none ∧ p.sendIfDue now = p) ∨ ∃ q, p.dueRequest? now = some q ∧
      p.sendIfDue now = { p with immediate := p.immediate.tail,
                                 delayed := if p.immediate = [] then p.delayed.tail else p.delayed,
                                 nextSendAt := now + p.settings.updateInterval }.transmit q now := by
  cases due : p.dueRequest? now with
  | none => exact Or.inl ⟨rfl, sendIfDue_of_none due⟩
  | some q => exact Or.inr ⟨q, rfl, sendIfDue_of_some due⟩

@[simp] theorem settings_sendIfDue : (p.sendIfDue now).settings = p.settings := by
  rcases sendIfDue_due_cases p now with ⟨-, same⟩ | ⟨q, -, eq⟩ <;> simp [*]

@[simp] theorem nextPingAt_sendIfDue : (p.sendIfDue now).nextPingAt = p.nextPingAt := by
  rcases sendIfDue_due_cases p now with ⟨-, same⟩ | ⟨q, -, eq⟩ <;> simp [*]

theorem nextSendAt_sendIfDue :
    (p.sendIfDue now).nextSendAt =
      if (p.dueRequest? now).isSome then now + p.settings.updateInterval else p.nextSendAt := by
  rcases sendIfDue_due_cases p now with ⟨none_due, same⟩ | ⟨q, due, eq⟩
  · simp [none_due, same]
  · simp [due, eq]

theorem sendIfDue_pops {q : Pending κ} (due : p.dueRequest? now = some q) :
    (p.immediate = q :: (p.sendIfDue now).immediate ∧ (p.sendIfDue now).delayed = p.delayed) ∨
      (p.immediate = [] ∧ (p.sendIfDue now).immediate = [] ∧ p.delayed = q :: (p.sendIfDue now).delayed) := by
  have head : p.queued.head? = some q := by
    unfold dueRequest? at due
    split at due
    · exact due
    · cases due
  rw [sendIfDue_of_some due]
  cases immediate : p.immediate with
  | cons q' rest => simp_all [queued]
  | nil => cases delayed : p.delayed <;> simp_all [queued]

end Fields

section Bench

variable {κ : Type} {p : ClientPeer Recorder κ} {now : Nat}

@[simp] theorem clock_pingIfDue : (p.pingIfDue now).transport.clock = p.transport.clock := by
  rcases pingIfDue_due_cases p now with ⟨-, same⟩ | ⟨r, i, -, -, eq⟩
  · rw [same]
  · rw [eq, transport_transmit_recorder]
    rfl

@[simp] theorem failure_pingIfDue : (p.pingIfDue now).transport.failure = p.transport.failure := by
  rcases pingIfDue_due_cases p now with ⟨-, same⟩ | ⟨r, i, -, -, eq⟩
  · rw [same]
  · rw [eq, transport_transmit_recorder]
    rfl

theorem journal_pingIfDue :
    (p.pingIfDue now).transport.journal = p.transport.journal ++
      (p.duePing? now).toList.map fun r => .sent p.transport.clock (.request r) p.transport.failure := by
  rcases pingIfDue_due_cases p now with ⟨none_due, same⟩ | ⟨r, i, due, -, eq⟩
  · simp [same, none_due]
  · rw [eq, transport_transmit_recorder, due]
    rfl

theorem journal_sendIfDue :
    (p.sendIfDue now).transport.journal = p.transport.journal ++
      (p.dueRequest? now).toList.map fun q => .sent p.transport.clock (.request q.request) p.transport.failure := by
  rcases sendIfDue_due_cases p now with ⟨none_due, same⟩ | ⟨q, due, eq⟩
  · simp [same, none_due]
  · rw [eq, transport_transmit_recorder, due]
    rfl

@[simp] theorem clock_sendIfDue : (p.sendIfDue now).transport.clock = p.transport.clock := by
  rcases sendIfDue_due_cases p now with ⟨-, same⟩ | ⟨q, -, eq⟩
  · rw [same]
  · rw [eq, transport_transmit_recorder]
    rfl

end Bench

end ClientPeer

namespace Seen

def send? : Seen → Option (Nat × Message)
  | .sent now m _ => some (now, m)
  | .received _ => none
  | .registered _ => none
  | .called .. => none

def sends (J : List Seen) : List (Nat × Message) := J.filterMap send?

@[simp] theorem sends_append (J J' : List Seen) : sends (J ++ J') = sends J ++ sends J' :=
  List.filterMap_append

@[simp] theorem sends_nil : sends [] = [] := rfl

@[simp] theorem sends_cons (s : Seen) (J : List Seen) : sends (s :: J) = s.send?.toList ++ sends J := by
  cases s <;> rfl

@[simp] theorem sends_map_received (ms : List Message) : sends (ms.map received) = [] := by
  induction ms <;> simp [*, send?]

@[simp] theorem sends_map_registered {α : Type} (l : List α) (f : α → Ticket) :
    sends (l.map fun a => .registered (f a)) = [] := by
  induction l <;> simp [*, send?]

end Seen

/-- What a service call did when it came to send: its instant, whether the transport was
connected, the requests queued, and the ping and the request it sent. -/
structure Tick where
  now : Nat
  connected : Bool
  queued : List (Pending Ticket)
  ping : Option Request
  sent : Option (Pending Ticket)

namespace Tick

def of (p : ClientPeer Recorder Ticket) (now : Nat) : Tick where
  now := now
  connected := p.connected
  queued := p.queued
  ping := if p.connected then p.duePing? now else none
  sent := if p.connected then p.dueRequest? now else none

@[simp] theorem now_of (p : ClientPeer Recorder Ticket) (now : Nat) : (of p now).now = now := rfl

@[simp] theorem connected_of (p : ClientPeer Recorder Ticket) (now : Nat) :
    (of p now).connected = p.connected := rfl

@[simp] theorem queued_of (p : ClientPeer Recorder Ticket) (now : Nat) : (of p now).queued = p.queued := rfl

def messages (t : Tick) : List (Nat × Message) :=
  (t.ping.toList ++ t.sent.toList.map (·.request)).map fun r => (t.now, .request r)

end Tick

namespace ClientPeer

variable {p : ClientPeer Recorder Ticket} {now : Nat}

@[simp] theorem settings_flush : (p.flush now).settings = p.settings := by
  unfold flush
  split <;> simp

@[simp] theorem clock_flush : (p.flush now).transport.clock = p.transport.clock := by
  unfold flush
  split <;> simp

theorem journal_flush :
    (p.flush now).transport.journal = p.transport.journal ++
      ((Tick.of p now).ping.toList ++ (Tick.of p now).sent.toList.map (·.request)).map
        fun r => .sent p.transport.clock (.request r) p.transport.failure := by
  unfold flush Tick.of
  cases connected : p.connected
  · simp
  · simp [journal_sendIfDue, journal_pingIfDue]

theorem sends_flush (clock : p.transport.clock = now) :
    Seen.sends (p.flush now).transport.journal = Seen.sends p.transport.journal ++ (Tick.of p now).messages := by
  rw [journal_flush]
  simp [Tick.messages, Seen.sends, Seen.send?, List.filterMap_map, clock, Function.comp_def]

@[simp] theorem registrations_flush :
    Seen.registrations (p.flush now).transport.journal = Seen.registrations p.transport.journal := by
  rw [journal_flush]
  simp [Seen.registrations, List.filterMap_map, Seen.registration?]

theorem nextSendAt_flush :
    (p.flush now).nextSendAt =
      if (Tick.of p now).sent.isSome then now + p.settings.updateInterval else p.nextSendAt := by
  unfold flush Tick.of
  cases connected : p.connected
  · simp
  · simp [nextSendAt_sendIfDue]

theorem nextPingAt_flush :
    (p.flush now).nextPingAt =
      if (Tick.of p now).ping.isSome then p.settings.pingInterval.map (now + ·) else p.nextPingAt := by
  unfold flush Tick.of
  cases connected : p.connected
  · simp
  · simp [nextPingAt_pingIfDue]

theorem flush_pops {q : Pending Ticket} (sent : (Tick.of p now).sent = some q) :
    (p.immediate = q :: (p.flush now).immediate ∧ (p.flush now).delayed = p.delayed) ∨
      (p.immediate = [] ∧ (p.flush now).immediate = [] ∧ p.delayed = q :: (p.flush now).delayed) := by
  unfold Tick.of at sent
  cases connected : p.connected
  · simp [connected] at sent
  · simp only [connected, if_true] at sent
    have due : (p.pingIfDue now).dueRequest? now = some q := by rwa [dueRequest?_pingIfDue]
    simpa [flush, connected] using sendIfDue_pops due

theorem flush_of_none_sent (none_sent : (Tick.of p now).sent = none) :
    (p.flush now).immediate = p.immediate ∧ (p.flush now).delayed = p.delayed := by
  unfold flush
  unfold Tick.of at none_sent
  cases connected : p.connected
  · simp
  · simp only [connected, if_true] at none_sent
    have none_due : (p.pingIfDue now).dueRequest? now = none := by rwa [dueRequest?_pingIfDue]
    simp [sendIfDue_of_none none_due]

end ClientPeer

/-- What the sends of a peer depend on stays as it was. -/
structure Steady (p p' : ClientPeer Recorder Ticket) : Prop where
  settings : p'.settings = p.settings
  nextSendAt : p'.nextSendAt = p.nextSendAt
  nextPingAt : p'.nextPingAt = p.nextPingAt
  clock : p'.transport.clock = p.transport.clock
  sends : Seen.sends p'.transport.journal = Seen.sends p.transport.journal

theorem Steady.refl (p : ClientPeer Recorder Ticket) : Steady p p := ⟨rfl, rfl, rfl, rfl, rfl⟩

theorem Steady.trans {p p' p'' : ClientPeer Recorder Ticket} (h : Steady p p') (h' : Steady p' p'') :
    Steady p p'' :=
  ⟨h'.settings.trans h.settings, h'.nextSendAt.trans h.nextSendAt, h'.nextPingAt.trans h.nextPingAt,
    h'.clock.trans h.clock, h'.sends.trans h.sends⟩

/-- The requests accepted, which the journal registers, are the requests sent, `S`, and those still
queued; and within each class they were sent, and are queued, in the order they were accepted. -/
structure Accounts (S : List (Pending Ticket)) (p : ClientPeer Recorder Ticket) : Prop where
  immediate : ∀ q ∈ p.immediate, q.parameters.immediate = true
  delayed : ∀ q ∈ p.delayed, q.parameters.immediate = false
  perm : ((S ++ p.queued).map Pending.ticket).Perm (Seen.registrations p.transport.journal)
  immediateOrder : List.Sublist ((S.filter (·.parameters.immediate) ++ p.immediate).map Pending.ticket)
    (Seen.registrations p.transport.journal)
  delayedOrder : List.Sublist ((S.filter (!·.parameters.immediate) ++ p.delayed).map Pending.ticket)
    (Seen.registrations p.transport.journal)

namespace Accounts

variable {S : List (Pending Ticket)} {p p' : ClientPeer Recorder Ticket}

theorem congr (h : Accounts S p) (immediate : p'.immediate = p.immediate) (delayed : p'.delayed = p.delayed)
    (registrations : Seen.registrations p'.transport.journal = Seen.registrations p.transport.journal) :
    Accounts S p' where
  immediate := immediate ▸ h.immediate
  delayed := delayed ▸ h.delayed
  perm := by simpa [ClientPeer.queued, immediate, delayed, registrations] using h.perm
  immediateOrder := by simpa [immediate, registrations] using h.immediateOrder
  delayedOrder := by simpa [delayed, registrations] using h.delayedOrder

theorem enqueue (h : Accounts S p) (q : Pending Ticket)
    (registrations : Seen.registrations p'.transport.journal =
      Seen.registrations p.transport.journal ++ [q.ticket])
    (queues : q.parameters.immediate = true ∧ p'.immediate = p.immediate ++ [q] ∧ p'.delayed = p.delayed ∨
      q.parameters.immediate = false ∧ p'.immediate = p.immediate ∧ p'.delayed = p.delayed ++ [q]) :
    Accounts S p' := by
  rcases queues with ⟨urgent, immediate, delayed⟩ | ⟨later, immediate, delayed⟩
  · refine ⟨?_, delayed ▸ h.delayed, ?_, ?_, ?_⟩
    · intro q' mem
      rw [immediate, List.mem_append, List.mem_singleton] at mem
      rcases mem with old | rfl
      · exact h.immediate q' old
      · exact urgent
    · -- the new request sits before the delayed queue, its ticket at the end of the journal
      rw [registrations]
      refine List.Perm.trans ?_ (h.perm.append_right [q.ticket])
      simp only [ClientPeer.queued, immediate, delayed, List.map_append, List.map_cons, List.map_nil,
        List.append_assoc]
      refine List.Perm.append_left _ (List.Perm.append_left _ ?_)
      exact List.perm_append_comm
    · rw [registrations, immediate, ← List.append_assoc, List.map_append]
      exact h.immediateOrder.append (List.Sublist.refl _)
    · rw [registrations, delayed]
      exact h.delayedOrder.trans (List.sublist_append_left _ _)
  · refine ⟨immediate ▸ h.immediate, ?_, ?_, ?_, ?_⟩
    · intro q' mem
      rw [delayed, List.mem_append, List.mem_singleton] at mem
      rcases mem with old | rfl
      · exact h.delayed q' old
      · exact later
    · rw [registrations]
      refine List.Perm.trans ?_ (h.perm.append_right [q.ticket])
      simp [ClientPeer.queued, immediate, delayed]
    · rw [registrations, immediate]
      exact h.immediateOrder.trans (List.sublist_append_left _ _)
    · rw [registrations, delayed, ← List.append_assoc, List.map_append]
      exact h.delayedOrder.append (List.Sublist.refl _)

end Accounts

theorem submit_settles (S : List (Pending Ticket)) (p : ClientPeer Recorder Ticket) (s : Submission) :
    Steady p (p.submit s) ∧ (Accounts S p → Accounts S (p.submit s)) := by
  unfold ClientPeer.submit ClientPeer.enqueue
  cases connected : p.connected
  · simp only [Bool.not_false, if_true]
    exact ⟨Steady.refl p, id⟩
  · let q : Pending Ticket :=
      { request := (s.ticket p).request, parameters := s.parameters, timeout := (s.ticket p).timeout,
        callback := some (s.ticket p) }
    have ticket : q.ticket = s.ticket p := rfl
    have steady : ∀ p' : ClientPeer Recorder Ticket, p'.settings = p.settings → p'.nextSendAt = p.nextSendAt →
        p'.nextPingAt = p.nextPingAt → p'.transport = p.transport →
        Steady p (p'.note (.registered (s.ticket p))) := by
      intro p' settings nextSendAt nextPingAt transport
      exact ⟨settings, nextSendAt, nextPingAt, by simp [ClientPeer.note, transport],
        by simp [ClientPeer.note, Recorder.note, transport, Seen.send?]⟩
    cases urgent : s.parameters.immediate
    · simp only [Bool.not_true, Bool.false_eq_true, if_false]
      refine ⟨steady _ rfl rfl rfl rfl, fun h => h.enqueue q ?_ (Or.inr ⟨urgent, rfl, ?_⟩)⟩
      · simp [ClientPeer.note, ClientPeer.takeRequestId, Recorder.note, Seen.registration?, ticket]
      · simp [ClientPeer.takeRequestId, ClientPeer.note, q, Submission.ticket]
    · simp only [Bool.not_true, Bool.false_eq_true, if_false]
      refine ⟨steady _ rfl rfl rfl rfl, fun h => h.enqueue q ?_ (Or.inl ⟨urgent, ?_, rfl⟩)⟩
      · simp [ClientPeer.note, ClientPeer.takeRequestId, Recorder.note, Seen.registration?, ticket]
      · simp [ClientPeer.takeRequestId, ClientPeer.note, q, Submission.ticket]

theorem foldl_submit_settles (S : List (Pending Ticket)) (ss : List Submission) (p : ClientPeer Recorder Ticket) :
    Steady p (ss.foldl ClientPeer.submit p) ∧ (Accounts S p → Accounts S (ss.foldl ClientPeer.submit p)) := by
  induction ss generalizing p with
  | nil => exact ⟨Steady.refl p, id⟩
  | cons s ss ih =>
    obtain ⟨steady₁, accounts₁⟩ := submit_settles S p s
    obtain ⟨steady₂, accounts₂⟩ := ih (p.submit s)
    exact ⟨steady₁.trans steady₂, accounts₂ ∘ accounts₁⟩

theorem answer_settles (S : List (Pending Ticket)) (script : Ticket → Response → List Submission)
    (t : Ticket) (r : Response) (p : ClientPeer Recorder Ticket) :
    Steady p (ClientPeer.answer script t r p).1 ∧
      (Accounts S p → Accounts S (ClientPeer.answer script t r p).1) := by
  set noted := p.note (.called p.transport.clock t r)
  have steady : Steady p noted :=
    ⟨rfl, rfl, rfl, rfl, by simp [noted, ClientPeer.note, Recorder.note, Seen.send?]⟩
  have accounts : Accounts S p → Accounts S noted := fun h =>
    h.congr rfl rfl (by simp [noted, ClientPeer.note, Recorder.note, Seen.registration?])
  obtain ⟨steady', accounts'⟩ := foldl_submit_settles S (script t r) noted
  exact ⟨steady.trans steady', accounts' ∘ accounts⟩

theorem recordRtt_settles (S : List (Pending Ticket)) (p : ClientPeer Recorder Ticket) (q : Pending Ticket) :
    Steady p (p.recordRtt q) ∧ (Accounts S p → Accounts S (p.recordRtt q)) := by
  unfold ClientPeer.recordRtt ClientPeer.addRttSample
  split
  · exact ⟨⟨rfl, rfl, rfl, rfl, rfl⟩, fun h => h.congr rfl rfl rfl⟩
  · exact ⟨Steady.refl p, id⟩

theorem foldl_conclude_settles (S : List (Pending Ticket)) (script : Ticket → Response → List Submission)
    (l : List (Pending Ticket)) (acc : ClientPeer Recorder Ticket × List Unit) :
    Steady acc.1 (l.foldl (ClientPeer.conclude (ClientPeer.answer script)) acc).1 ∧
      (Accounts S acc.1 → Accounts S (l.foldl (ClientPeer.conclude (ClientPeer.answer script)) acc).1) := by
  induction l generalizing acc with
  | nil => exact ⟨Steady.refl _, id⟩
  | cons q l ih =>
    obtain ⟨steady', accounts'⟩ := ih (ClientPeer.conclude (ClientPeer.answer script) acc q)
    have first : Steady acc.1 (ClientPeer.conclude (ClientPeer.answer script) acc q).1 ∧
        (Accounts S acc.1 → Accounts S (ClientPeer.conclude (ClientPeer.answer script) acc q).1) := by
      rcases ClientPeer.conclude_cases (ClientPeer.answer script) acc q with
        ⟨-, same⟩ | ⟨-, -, recorded⟩ | ⟨c, r, -, -, called⟩
      · rw [same]
        exact ⟨Steady.refl _, id⟩
      · rw [recorded]
        exact recordRtt_settles S acc.1 q
      · rw [called]
        obtain ⟨steady₁, accounts₁⟩ := recordRtt_settles S acc.1 q
        obtain ⟨steady₂, accounts₂⟩ := answer_settles S script c r (acc.1.recordRtt q)
        exact ⟨steady₁.trans steady₂, accounts₂ ∘ accounts₁⟩
    rw [List.foldl_cons]
    exact ⟨first.1.trans steady', accounts' ∘ first.2⟩

theorem settled_settles (S : List (Pending Ticket)) (script : Ticket → Response → List Submission)
    (p : ClientPeer Recorder Ticket) (now : Nat) :
    Steady p (p.settled now (ClientPeer.answer script)) ∧
      (Accounts S p → Accounts S (p.settled now (ClientPeer.answer script))) := by
  obtain ⟨w, received, -⟩ := ClientPeer.foldl_dispatch now (Transport.drain p.transport).1
    ({ p with transport := (Transport.drain p.transport).2 }, [])
  -- handing on what arrived only notes it and touches the waiting requests
  have steady₁ : Steady p { p with transport := (Transport.drain p.transport).2, waiting := w } :=
    ⟨rfl, rfl, rfl, rfl, by simp [Recorder.drain_eq]⟩
  have accounts₁ : Accounts S p → Accounts S { p with transport := (Transport.drain p.transport).2, waiting := w } :=
    fun h => h.congr rfl rfl (by simp [Recorder.drain_eq])
  set p₂ : ClientPeer Recorder Ticket :=
    ({ p with transport := (Transport.drain p.transport).2, waiting := w } : ClientPeer Recorder Ticket).expire now
  obtain ⟨steady₃, accounts₃⟩ := foldl_conclude_settles S script p₂.waiting (p₂, [])
  unfold ClientPeer.settled
  dsimp only
  rw [received]
  -- timing out and dropping settled requests touch only the waiting requests
  have expired : Steady { p with transport := (Transport.drain p.transport).2, waiting := w } p₂ :=
    ⟨rfl, rfl, rfl, rfl, rfl⟩
  exact ⟨(steady₁.trans expired).trans (steady₃.trans ⟨rfl, rfl, rfl, rfl, rfl⟩),
    fun h => (accounts₃ ((accounts₁ h).congr rfl rfl rfl)).congr rfl rfl rfl⟩

theorem Accounts.flush {S : List (Pending Ticket)} {p : ClientPeer Recorder Ticket} (h : Accounts S p)
    (now : Nat) : Accounts (S ++ (Tick.of p now).sent.toList) (p.flush now) := by
  cases sent : (Tick.of p now).sent with
  | none =>
    obtain ⟨immediate, delayed⟩ := ClientPeer.flush_of_none_sent sent
    simpa using h.congr immediate delayed ClientPeer.registrations_flush
  | some q =>
    have registrations : Seen.registrations (p.flush now).transport.journal =
        Seen.registrations p.transport.journal := ClientPeer.registrations_flush
    rcases ClientPeer.flush_pops sent with ⟨popped, delayed⟩ | ⟨empty, stillEmpty, popped⟩
    · have urgent : q.parameters.immediate = true := h.immediate q (by simp [popped])
      refine ⟨fun q' mem => h.immediate q' (by simp [popped, mem]), delayed ▸ h.delayed, ?_, ?_, ?_⟩
      · simpa [ClientPeer.queued, popped, delayed, registrations] using h.perm
      · simpa [popped, urgent, registrations] using h.immediateOrder
      · simpa [delayed, urgent, registrations] using h.delayedOrder
    · have later : q.parameters.immediate = false := h.delayed q (by simp [popped])
      refine ⟨by simp [stillEmpty], fun q' mem => h.delayed q' (by simp [popped, mem]), ?_, ?_, ?_⟩
      · simpa [ClientPeer.queued, popped, empty, stillEmpty, registrations] using h.perm
      · simpa [empty, stillEmpty, later, registrations] using h.immediateOrder
      · simpa [popped, later, registrations] using h.delayedOrder

namespace Tick

def lastAt (sel : Tick → Bool) (L : List Tick) : Option Nat := ((L.filter sel).getLast?).map (·.now)

@[simp] theorem lastAt_nil (sel : Tick → Bool) : lastAt sel [] = none := rfl

theorem getD_map_add_le_iff (o : Option Nat) (gap now : Nat) :
    (o.map (· + gap)).getD 0 ≤ now ↔ ∀ s ∈ o, s + gap ≤ now := by
  cases o <;> simp

theorem lastAt_append_singleton (sel : Tick → Bool) (L : List Tick) (t : Tick) :
    lastAt sel (L ++ [t]) = if sel t then some t.now else lastAt sel L := by
  unfold lastAt
  cases picked : sel t <;> simp [picked, List.filter_append]

end Tick

/-- What a tick did, given the ticks `pre` before it: it sent the head of its queue, an immediate
request whenever one was queued; it sent a request exactly when it was connected, had one queued
and the update interval had passed since the last request sent; and it sent a ping exactly when it
was connected, pings were on and the ping interval had passed since the last ping. -/
structure Timely (settings : ClientSettings) (pre : List Tick) (t : Tick) : Prop where
  head : ∀ q ∈ t.sent, t.queued.head? = some q ∧
    ((∃ q' ∈ t.queued, q'.parameters.immediate = true) → q.parameters.immediate = true)
  sends : t.sent.isSome ↔ t.connected ∧ t.queued ≠ [] ∧
    ∀ s ∈ Tick.lastAt (·.sent.isSome) pre, s + settings.updateInterval ≤ t.now
  pings : t.ping.isSome ↔ t.connected ∧ ∃ i, settings.pingInterval = some i ∧
    ∀ s ∈ Tick.lastAt (·.ping.isSome) pre, s + i ≤ t.now

/-- The invariant of a peer on the bench and the ticks it has made. -/
structure Schedule (settings : ClientSettings) (p : ClientPeer Recorder Ticket) (L : List Tick) : Prop where
  fixed : p.settings = settings
  accounts : Accounts (L.filterMap (·.sent)) p
  sends : Seen.sends p.transport.journal = L.flatMap Tick.messages
  nextSendAt : p.nextSendAt = ((Tick.lastAt (·.sent.isSome) L).map (· + settings.updateInterval)).getD 0
  nextPingAt : p.nextPingAt =
    settings.pingInterval.map fun i => ((Tick.lastAt (·.ping.isSome) L).map (· + i)).getD 0
  timely : ∀ pre t post, L = pre ++ t :: post → Timely settings pre t

namespace Schedule

variable {settings : ClientSettings} {p p' : ClientPeer Recorder Ticket} {L : List Tick}

theorem onBench (settings : ClientSettings) : Schedule settings (ClientPeer.onBench settings) [] where
  fixed := rfl
  accounts := by
    constructor <;> simp [ClientPeer.onBench, ClientPeer.create, ClientPeer.queued]
  sends := rfl
  nextSendAt := rfl
  nextPingAt := by simp [ClientPeer.onBench, ClientPeer.create]
  timely := by simp

theorem steady (h : Schedule settings p L) (steady : Steady p p')
    (accounts : Accounts (L.filterMap (·.sent)) p → Accounts (L.filterMap (·.sent)) p') :
    Schedule settings p' L where
  fixed := steady.settings.trans h.fixed
  accounts := accounts h.accounts
  sends := steady.sends.trans h.sends
  nextSendAt := steady.nextSendAt.trans h.nextSendAt
  nextPingAt := steady.nextPingAt.trans h.nextPingAt
  timely := h.timely

theorem timely_of (h : Schedule settings p L) (now : Nat) : Timely settings L (Tick.of p now) where
  head := by
    intro q sent
    have due : p.dueRequest? now = some q := by
      simp only [Tick.of] at sent
      split at sent
      · exact sent
      · cases sent
    have head : p.queued.head? = some q := by
      unfold ClientPeer.dueRequest? at due
      split at due
      · exact due
      · cases due
    refine ⟨head, ?_⟩
    rintro ⟨q', mem, urgent⟩
    -- an immediate request is in the immediate queue, which then comes first
    have inImmediate : q' ∈ p.immediate := by
      rcases List.mem_append.1 mem with here | there
      · exact here
      · simp [h.accounts.delayed q' there] at urgent
    cases immediate : p.immediate with
    | nil => simp [immediate] at inImmediate
    | cons first rest =>
      simp only [ClientPeer.queued, immediate, List.cons_append, List.head?_cons, Option.some.injEq] at head
      exact head ▸ h.accounts.immediate first (by simp [immediate])
  sends := by
    have passed := Tick.getD_map_add_le_iff (Tick.lastAt (·.sent.isSome) L) settings.updateInterval now
    rw [← h.nextSendAt] at passed
    simp only [Tick.of]
    cases connected : p.connected
    · simp
    · simp only [if_true, ClientPeer.dueRequest?, ← passed]
      by_cases due : p.nextSendAt ≤ now <;> simp [due, List.isSome_head?]
  pings := by
    simp only [Tick.of, ClientPeer.duePing?, h.nextPingAt, h.fixed]
    cases connected : p.connected
    · simp
    · cases interval : settings.pingInterval with
      | none => simp
      | some i =>
        have passed := Tick.getD_map_add_le_iff (Tick.lastAt (·.ping.isSome) L) i now
        cases scheduled : Tick.lastAt (·.ping.isSome) L <;> simp_all

theorem split_append_singleton {α : Type} {L pre post : List α} {x t : α}
    (split : L ++ [x] = pre ++ t :: post) :
    (pre = L ∧ t = x ∧ post = []) ∨ ∃ post', L = pre ++ t :: post' ∧ post = post' ++ [x] := by
  rcases List.eq_nil_or_concat post with rfl | ⟨post', y, rfl⟩
  · left
    have := List.append_inj' split (by simp)
    simp_all
  · right
    rw [List.concat_eq_append, ← List.cons_append, ← List.append_assoc] at split
    obtain ⟨same, last⟩ := List.append_inj' split (by simp)
    simp only [List.cons.injEq, and_true] at last
    exact ⟨post', same, by rw [List.concat_eq_append, last]⟩

theorem flush (h : Schedule settings p L) {now : Nat} (clock : p.transport.clock = now) :
    Schedule settings (p.flush now) (L ++ [Tick.of p now]) where
  fixed := by rw [ClientPeer.settings_flush, h.fixed]
  accounts := by
    have last : [Tick.of p now].filterMap (·.sent) = (Tick.of p now).sent.toList := by
      cases sent : (Tick.of p now).sent <;> simp [sent]
    rw [List.filterMap_append, last]
    exact h.accounts.flush now
  sends := by
    rw [ClientPeer.sends_flush clock, h.sends, List.flatMap_append, List.flatMap_singleton]
  nextSendAt := by
    rw [ClientPeer.nextSendAt_flush, Tick.lastAt_append_singleton, h.fixed]
    cases sent : (Tick.of p now).sent with
    | none =>
      simp only [Option.isSome_none, Bool.false_eq_true, if_false]
      exact h.nextSendAt
    | some q => rw [Option.isSome_some, if_pos rfl, if_pos rfl, Option.map_some, Option.getD_some, Tick.now_of]
  nextPingAt := by
    rw [ClientPeer.nextPingAt_flush, Tick.lastAt_append_singleton, h.fixed]
    cases pinged : (Tick.of p now).ping with
    | none =>
      simp only [Option.isSome_none, Bool.false_eq_true, if_false]
      exact h.nextPingAt
    | some r =>
      rw [Option.isSome_some, if_pos rfl, if_pos rfl, Tick.now_of]
      cases settings.pingInterval <;> rfl
  timely := by
    intro pre t post split
    rcases split_append_singleton split with ⟨rfl, rfl, -⟩ | ⟨post', old, -⟩
    · exact h.timely_of now
    · exact h.timely pre t post' old

end Schedule

namespace Action

def tick? (script : Ticket → Response → List Submission) : Action → ClientPeer Recorder Ticket → Option Tick
  | .service wait, p =>
    let now := p.transport.clock + wait
    some (Tick.of ({ p with transport := { p.transport with clock := now } }.settled now
      (ClientPeer.answer script)) now)
  | _, _ => none

def ticks (script : Ticket → Response → List Submission) :
    List Action → ClientPeer Recorder Ticket → List Tick
  | [], _ => []
  | a :: rest, p => (a.tick? script p).toList ++ ticks script rest (a.perform script p)

end Action

namespace Schedule

variable {settings : ClientSettings} {p : ClientPeer Recorder Ticket} {L : List Tick}

theorem quiet (h : Schedule settings p L) {script : Ticket → Response → List Submission} {a : Action}
    (none_made : a.tick? script p = none) (steady : Steady p (a.perform script p))
    (accounts : ∀ S, Accounts S p → Accounts S (a.perform script p)) :
    Schedule settings (a.perform script p) (L ++ (a.tick? script p).toList) := by
  rw [none_made, Option.toList_none, List.append_nil]
  exact h.steady steady (accounts _)

theorem perform (h : Schedule settings p L) (script : Ticket → Response → List Submission) (a : Action) :
    Schedule settings (a.perform script p) (L ++ (a.tick? script p).toList) := by
  cases a with
  | send s => exact h.quiet rfl (submit_settles [] p s).1 fun S => (submit_settles S p s).2
  | respond r now =>
    obtain ⟨w, answered, -⟩ := ClientPeer.onResponse_spec (p.note (.received (.response r))) r now
    refine h.quiet rfl ?_ fun S h => ?_
    · show Steady p ((p.note (.received (.response r))).onResponse r now).2
      rw [answered]
      exact ⟨rfl, rfl, rfl, rfl, by simp [ClientPeer.note, Recorder.note, Seen.send?]⟩
    · show Accounts S ((p.note (.received (.response r))).onResponse r now).2
      rw [answered]
      exact h.congr rfl rfl (by simp [ClientPeer.note, Recorder.note, Seen.registration?])
  | arrive m | failSends broken | disconnect =>
    -- only the transport's inbox or flags change
    exact h.quiet rfl ⟨rfl, rfl, rfl, rfl, rfl⟩ fun S h => h.congr rfl rfl rfl
  | service wait =>
    set now := p.transport.clock + wait
    set p₁ : ClientPeer Recorder Ticket := { p with transport := { p.transport with clock := now } }
    have h₁ : Schedule settings p₁ L :=
      ⟨h.fixed, h.accounts.congr rfl rfl rfl, h.sends, h.nextSendAt, h.nextPingAt, h.timely⟩
    obtain ⟨steady, accounts⟩ := settled_settles (L.filterMap (·.sent)) script p₁ now
    have h₅ := h₁.steady steady accounts
    have eq : (Action.service wait).perform script p = (p₁.settled now (ClientPeer.answer script)).flush now :=
      ClientPeer.service_fst p₁ now (ClientPeer.answer script)
    rw [eq]
    exact h₅.flush steady.clock

theorem run (h : Schedule settings p L) (script : Ticket → Response → List Submission) (actions : List Action) :
    Schedule settings (Action.run script actions p) (L ++ Action.ticks script actions p) := by
  induction actions generalizing p L with
  | nil => simpa [Action.run, Action.ticks] using h
  | cons a rest ih =>
    have step := ih (h.perform script a)
    simpa [Action.run, Action.ticks, List.append_assoc] using step

end Schedule

namespace Tick

theorem chain_of_spaced (sel : Tick → Bool) (gap : Nat) (L : List Tick)
    (spaced : ∀ pre t post, L = pre ++ t :: post → sel t = true → ∀ s ∈ lastAt sel pre, s + gap ≤ t.now) :
    ((L.filter sel).map (·.now)).IsChain fun a b => a + gap ≤ b := by
  induction L using List.reverseRecOn with
  | nil => exact List.isChain_nil
  | append_singleton L x ih =>
    have earlier := ih fun pre t post split => spaced pre t (post ++ [x]) (by simp [split])
    cases picked : sel x
    · simpa [List.filter_append, picked] using earlier
    · -- the new tick follows the last picked one
      have last := spaced L x [] rfl picked
      simp only [List.filter_append, List.filter_cons, picked, if_true, List.filter_nil, List.map_append,
        List.map_cons, List.map_nil]
      refine List.isChain_append.2 ⟨earlier, List.isChain_singleton _, ?_⟩
      intro a first b head
      simp only [List.head?_cons, Option.mem_def, Option.some.injEq] at head
      subst head
      rw [List.getLast?_map] at first
      exact last a first

end Tick

theorem Timely.messages_of_disconnected {settings : ClientSettings} {pre : List Tick} {t : Tick}
    (h : Timely settings pre t) (disconnected : t.connected = false) : t.messages = [] := by
  have unsent : t.sent = none := by
    cases sent : t.sent with
    | none => rfl
    | some q => simpa [disconnected] using h.sends.1 (by simp [sent])
  have unpinged : t.ping = none := by
    cases pinged : t.ping with
    | none => rfl
    | some r => simpa [disconnected] using h.pings.1 (by simp [pinged])
  simp [Tick.messages, unsent, unpinged]

/-- On the bench, whatever the settings, the callbacks' script and the actions, the ticks of the run
account for every send. The transport was handed exactly the ticks' messages, at most a ping and
one request per service call. The requests sent and those still queued are the requests accepted,
each once, and within each class in the order they were accepted. Every tick sent the head of its
queue, an immediate request whenever one was queued. It sent a request exactly when connected,
with a request queued and the update interval passed since the last request sent, and a ping
exactly when connected, with pings on and the ping interval passed since the last ping. So
requests are spaced by the update interval, pings by the ping interval, and nothing goes out while
the transport is disconnected. -/
theorem requests_go_out_once_in_order_and_spaced (settings : ClientSettings)
    (script : Ticket → Response → List Submission) (actions : List Action) :
    let p := Action.run script actions (ClientPeer.onBench settings)
    let L := Action.ticks script actions (ClientPeer.onBench settings)
    let accepted := Seen.registrations p.transport.journal
    Seen.sends p.transport.journal = L.flatMap Tick.messages ∧
      (∀ a : Action, Seen.sends (a.perform script p).transport.journal =
        Seen.sends p.transport.journal ++ (a.tick? script p).toList.flatMap Tick.messages) ∧
      ((L.filterMap (·.sent) ++ p.queued).map Pending.ticket).Perm accepted ∧
      accepted.length = p.queuedCount + (L.filterMap (·.sent)).length ∧
      List.Sublist (((L.filterMap (·.sent)).filter (·.parameters.immediate) ++ p.immediate).map Pending.ticket)
        accepted ∧
      List.Sublist (((L.filterMap (·.sent)).filter (!·.parameters.immediate) ++ p.delayed).map Pending.ticket)
        accepted ∧
      (∀ pre t post, L = pre ++ t :: post → Timely settings pre t) ∧
      ((L.filter (·.sent.isSome)).map (·.now)).IsChain (fun a b => a + settings.updateInterval ≤ b) ∧
      (∀ t ∈ L, t.connected = false → t.messages = []) ∧
      (∀ t ∈ L, t.ping.isSome → settings.pingInterval.isSome) ∧
      ∀ i, settings.pingInterval = some i →
        ((L.filter (·.ping.isSome)).map (·.now)).IsChain fun a b => a + i ≤ b := by
  intro p L accepted
  have h : Schedule settings p L := by
    have run := (Schedule.onBench settings).run script actions
    rwa [List.nil_append] at run
  have position : ∀ t ∈ L, ∃ pre post, L = pre ++ t :: post := fun t mem => List.append_of_mem mem
  refine ⟨h.sends, fun a => ?_, h.accounts.perm, ?_, h.accounts.immediateOrder, h.accounts.delayedOrder,
    h.timely, ?_, fun t mem disconnected => ?_, fun t mem pinged => ?_, fun i interval => ?_⟩
  · rw [(h.perform script a).sends, List.flatMap_append, h.sends]
  · have counted := h.accounts.perm.length_eq
    simp only [List.length_map, List.length_append, ClientPeer.queued] at counted
    show (Seen.registrations p.transport.journal).length = p.delayed.length + p.immediate.length + _
    omega
  · exact Tick.chain_of_spaced _ _ L fun pre t post split sent => ((h.timely pre t post split).sends.1 sent).2.2
  · obtain ⟨pre, post, split⟩ := position t mem
    exact (h.timely pre t post split).messages_of_disconnected disconnected
  · obtain ⟨pre, post, split⟩ := position t mem
    obtain ⟨-, i, interval, -⟩ := (h.timely pre t post split).pings.1 pinged
    simp [interval]
  · refine Tick.chain_of_spaced _ _ L fun pre t post split pinged => ?_
    obtain ⟨-, j, interval', spaced⟩ := (h.timely pre t post split).pings.1 pinged
    rw [interval, Option.some.injEq] at interval'
    exact interval' ▸ spaced

end Switchboard.Peer
