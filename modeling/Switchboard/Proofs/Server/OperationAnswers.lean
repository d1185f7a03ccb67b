import Mathlib
import Switchboard.Server.Fiber
import Switchboard.Proofs.Server.ConcurrentAdmission
import Switchboard.Proofs.Peer.Reassembly
/-!
# Every operation request is answered once

`OperationBench` runs one session through any interleaving of reads, request handling and worker
steps. Its invariants say the responses written and the answers still queued are exactly those of
the requests handled, each guard given back once, in stream order
(`operation_requests_are_answered_once`).
-/
namespace Switchboard.Server

open Switchboard.Peer

/-! ## Worker pools -/

namespace Fiber

variable {α : Type}

theorem flatten_modify_append {l : List (List α)} {i : Nat} (within : i < l.length) (x : α) :
    (l.modify i (· ++ [x])).flatten.Perm (l.flatten ++ [x]) := by
  have split : l.take i ++ l[i] :: l.drop (i + 1) = l := by
    rw [← List.drop_eq_getElem_cons within, List.take_append_drop]
  rw [List.modify_eq_take_cons_drop within]
  conv_rhs => rw [← split]
  simp only [List.flatten_append, List.flatten_cons, List.append_assoc]
  exact List.Perm.append_left _ (List.Perm.append_left _ List.perm_append_comm)

theorem flatten_set_cons {l : List (List α)} {i : Nat} {x : α} {xs : List α} (found : l[i]? = some (x :: xs)) :
    (x :: (l.set i xs).flatten).Perm l.flatten := by
  obtain ⟨within, entry⟩ := List.getElem?_eq_some_iff.1 found
  have split : l.take i ++ (x :: xs) :: l.drop (i + 1) = l := by
    rw [← entry, ← List.drop_eq_getElem_cons within, List.take_append_drop]
  rw [List.set_eq_take_cons_drop _ within]
  conv_rhs => rw [← split]
  simp only [List.flatten_append, List.flatten_cons, List.cons_append]
  exact List.perm_middle.symm

@[simp] theorem length_enqueue (f : Fiber α) (j : α) : (f.enqueue j).2.queues.length = f.queues.length := by
  unfold enqueue send
  split <;> simp

@[simp] theorem accepting_enqueue (f : Fiber α) (j : α) : (f.enqueue j).2.accepting = f.accepting := by
  unfold enqueue send
  split <;> rfl

theorem enqueue_taken (f : Fiber α) (j : α) (accepting : f.accepting = true) (workers : 0 < f.queues.length) :
    (f.enqueue j).1 = true := by
  unfold enqueue send
  rw [if_pos (by simp [accepting, Nat.mod_lt _ workers])]

theorem waiting_enqueue_of_taken {f : Fiber α} {j : α} (taken : (f.enqueue j).1 = true) :
    (f.enqueue j).2.waiting.Perm (f.waiting ++ [j]) := by
  unfold enqueue send at *
  split
  · next room =>
    simp only [Bool.and_eq_true, decide_eq_true_eq] at room
    exact flatten_modify_append room.2 j
  · next room =>
    rw [if_neg room] at taken
    cases taken

theorem waiting_enqueue_of_refused {f : Fiber α} {j : α} (refused : (f.enqueue j).1 = false) :
    (f.enqueue j).2.waiting = f.waiting := by
  unfold enqueue send at *
  split
  · next room =>
    rw [if_pos room] at refused
    cases refused
  · rfl

theorem take_eq_some {f f' : Fiber α} {i : Nat} {j : α} (taken : f.take i = some (j, f')) :
    (j :: f'.waiting).Perm f.waiting ∧ f'.queues.length = f.queues.length ∧ f'.accepting = f.accepting := by
  unfold take at taken
  split at taken
  · next job rest found =>
    cases taken
    exact ⟨flatten_set_cons found, by simp, rfl⟩
  · cases taken

@[simp] theorem waiting_create (threads : Nat) : (create threads : Fiber α).waiting = [] := by
  simp [create, waiting]

theorem length_create_pos (threads : Nat) : 0 < (create threads : Fiber α).queues.length := by
  simp [create]

@[simp] theorem accepting_create (threads : Nat) : (create threads : Fiber α).accepting = true := rfl

@[simp] theorem waiting_shutdown (f : Fiber α) : f.shutdown.waiting = f.waiting := rfl

@[simp] theorem length_shutdown (f : Fiber α) : f.shutdown.queues.length = f.queues.length := rfl

@[simp] theorem accepting_shutdown (f : Fiber α) : f.shutdown.accepting = false := rfl

end Fiber

/-! ## What the gates count -/

namespace Admission

def Known (a : Admission) : Prop := ∀ p ∈ a.sessions, p.2 < a.tallies.length

/-- The gates count, beyond what `base` counted, exactly the places of the guards `held`: one in
the server's count and one in its tally's, for each. -/
def Counts (a base : Admission) (held : List Guard) : Prop :=
  a.pending = base.pending + held.length ∧
    ∀ i, a.tallyPending i = base.tallyPending i + held.countP (·.tally == i)

theorem Counts.refl (a : Admission) : a.Counts a [] := ⟨rfl, fun _ => rfl⟩

theorem Counts.perm {a base : Admission} {held held' : List Guard} (h : a.Counts base held)
    (p : held.Perm held') : a.Counts base held' := by
  refine ⟨?_, fun i => ?_⟩
  · rw [h.1, p.length_eq]
  · rw [h.2 i, p.countP_eq]

theorem Counts.trans {a b base : Admission} {held held' : List Guard} (later : b.Counts a held')
    (earlier : a.Counts base held) : b.Counts base (held ++ held') := by
  refine ⟨?_, fun i => ?_⟩
  · rw [later.1, earlier.1, List.length_append]
    omega
  · rw [later.2 i, earlier.2 i, List.countP_append]
    omega

theorem Counts.release {a base : Admission} {g : Guard} {held : List Guard} (h : a.Counts base (g :: held)) :
    (a.release g).Counts base held := by
  have positive : 0 < a.tallyPending g.tally := by
    rw [h.2 g.tally, List.countP_cons]
    simp
  refine ⟨?_, fun i => ?_⟩
  · show a.pending - 1 = _
    rw [h.1, List.length_cons]
    omega
  · simp only [Admission.release, tallyPending_setPending]
    rw [tallyPending_modifyTally_pending a (lt_length_of_tallyPending_pos positive) (· - 1), h.2, h.2,
      List.countP_cons]
    by_cases same : g.tally = i
    · subst same
      simp
    · simp [same]

theorem Known.release {a : Admission} (known : a.Known) (g : Guard) : (a.release g).Known := by
  intro p mem
  show p.2 < (a.modifyTally g.tally _).tallies.length
  rw [length_modifyTally]
  exact known p mem

theorem tallyFor_spec {a : Admission} (known : a.Known) (session now : Nat) :
    (a.tallyFor session now).1 < (a.tallyFor session now).2.tallies.length ∧
      (a.tallyFor session now).2.Known ∧ (a.tallyFor session now).2.Counts a [] := by
  unfold tallyFor
  split
  · next i found => exact ⟨known _ (mem_sessions_of_tallyOf? found), known, Counts.refl a⟩
  · refine ⟨by simp, fun p mem => ?_, rfl, fun j => ?_⟩
    · simp only [List.mem_append, List.mem_singleton] at mem
      rcases mem with mem | rfl
      · have := known p mem
        simp only [List.length_append, List.length_singleton]
        omega
      · simp
    · rw [tallyPending_of_tallies_eq rfl]
      split
      · next last => simp [last, tallyPending]
      · rfl

theorem sessionGates_cases (a : Admission) (i now : Nat) :
    ∃ t : Tally, t.pending = a.tallyPending i ∧
      (a.sessionGates i now = (.error .sessionRate, a.modifyTally i fun _ => t) ∨
        a.sessionGates i now = (.error .sessionPending, a.modifyTally i fun _ => t) ∨
        a.sessionGates i now = (.ok ⟨i⟩, { (a.modifyTally i fun _ => t).modifyTally i
            (fun t => { t with pending := t.pending + 1 }) with pending := a.pending + 1 })) := by
  unfold sessionGates
  dsimp only
  generalize ticked : Tally.tick (a.tallies.getD i { windowStart := now }) now a.limits.window
    a.limits.maxSessionRate = result
  obtain ⟨fits, t⟩ := result
  have kept : t.pending = a.tallyPending i := by
    have := congrArg (·.2.pending) ticked
    simp only [Tally.pending_tick] at this
    rw [← this, pending_getD]
  refine ⟨t, kept, ?_⟩
  cases fits
  · exact .inl rfl
  · simp only [Bool.not_true, Bool.false_eq_true, if_false]
    split
    · exact .inr (.inl rfl)
    · exact .inr (.inr rfl)

theorem keeps_of_pending {a : Admission} {i : Nat} {t : Tally} (kept : t.pending = a.tallyPending i) :
    ∀ t', a.tallies[i]? = some t' → ((fun _ => t) t').pending = t'.pending := by
  intro t' found
  simp [kept, tallyPending, found]

theorem sessionGates_error {a a' : Admission} {i now : Nat} {r : Rejection}
    (h : a.sessionGates i now = (.error r, a')) :
    a'.sessions = a.sessions ∧ a'.tallies.length = a.tallies.length ∧ a'.Counts a [] := by
  obtain ⟨t, kept, rate | full | admitted⟩ := sessionGates_cases a i now
  all_goals rw [h] at *
  · cases rate
    exact ⟨rfl, by simp, rfl, tallyPending_modifyTally_of_keeps a i _ (keeps_of_pending kept)⟩
  · cases full
    exact ⟨rfl, by simp, rfl, tallyPending_modifyTally_of_keeps a i _ (keeps_of_pending kept)⟩
  · cases admitted

theorem sessionGates_ok {a a' : Admission} {i now : Nat} {g : Guard} (within : i < a.tallies.length)
    (h : a.sessionGates i now = (.ok g, a')) :
    g.tally = i ∧ a'.sessions = a.sessions ∧ a'.tallies.length = a.tallies.length ∧ a'.Counts a [g] := by
  obtain ⟨t, kept, rate | full | admitted⟩ := sessionGates_cases a i now
  all_goals rw [h] at *
  · cases rate
  · cases full
  · cases admitted
    refine ⟨rfl, rfl, by simp, rfl, fun j => ?_⟩
    have stored : (a.modifyTally i fun _ => t).tallyPending j = a.tallyPending j :=
      tallyPending_modifyTally_of_keeps a i _ (keeps_of_pending kept) j
    rw [tallyPending_setPending, tallyPending_modifyTally_pending _ (by simpa using within) (· + 1), stored]
    by_cases same : i = j
    · subst same
      simp [stored]
    · simp [same]

theorem enter_ok {a a' : Admission} {session now : Nat} {g : Guard} (known : a.Known)
    (h : a.enter session now = (.ok g, a')) : a'.Known ∧ a'.Counts a [g] := by
  rw [enter_eq] at h
  split at h
  · cases h
  · obtain ⟨within, known', counts⟩ := tallyFor_spec known session now
    obtain ⟨-, sessions, length, counts'⟩ := sessionGates_ok within h
    refine ⟨fun p mem => ?_, by simpa using counts'.trans counts⟩
    rw [sessions] at mem
    rw [length]
    exact known' p mem

theorem enter_error {a a' : Admission} {session now : Nat} {r : Rejection} (known : a.Known)
    (h : a.enter session now = (.error r, a')) : a'.Known ∧ a'.Counts a [] := by
  rw [enter_eq] at h
  split at h
  · cases h
    exact ⟨known, Counts.refl a⟩
  · obtain ⟨-, known', counts⟩ := tallyFor_spec known session now
    obtain ⟨sessions, length, counts'⟩ := sessionGates_error h
    refine ⟨fun p mem => ?_, by simpa using counts'.trans counts⟩
    rw [sessions] at mem
    rw [length]
    exact known' p mem

end Admission

/-! ## The four ways a request is handled -/

/-- How a request is handled: a ping is answered at once; any other request is turned away by the
gates, finds no handler, or becomes a job of its handler, holding its guard until it has run. -/
inductive Handling (κ : Type) where
  | pong
  | rejected (r : Rejection)
  | unhandled
  | job (handler : κ) (guard : Guard)

variable {κ : Type}

/-- The response a job's handler gives, carrying the request's code and id, or "internal server
error" when the handler fails. -/
def Job.response (run : κ → Request → Option Response) (j : Job κ) : Response :=
  match run j.handler j.request with
  | some r => { r with operationCode := j.request.operationCode, requestId := j.request.requestId }
  | none => Response.forRequest j.request .internalServerError

namespace Handling

def answer (run : κ → Request → Option Response) (q : Request) : Handling κ → Response
  | pong => (Response.forRequest q .ok).withPayload q.payload
  | rejected r => Response.forRequest q r.returnCode
  | unhandled => Response.forRequest q .operationNotFound
  | job h g => Job.response run ⟨h, q, g⟩

def guard? : Handling κ → Option Guard
  | job _ g => some g
  | _ => none

/-- The ways a service with these handlers may handle `q`: a ping, and only a ping, is answered
as one; a job goes to the handler of the request's code, and a request without one finds none. -/
def Fits (handlers : List (Nat × κ)) (q : Request) : Handling κ → Prop
  | pong => q.isPing = true
  | rejected _ => q.isPing = false
  | unhandled => q.isPing = false ∧ handlers.lookup q.operationCode = none
  | job h _ => q.isPing = false ∧ handlers.lookup q.operationCode = some h

theorem answer_ids (run : κ → Request → Option Response) (q : Request) (p : Handling κ) :
    (p.answer run q).operationCode = q.operationCode ∧ (p.answer run q).requestId = q.requestId := by
  cases p with
  | job h g =>
    show (Job.response run ⟨h, q, g⟩).operationCode = _ ∧ (Job.response run ⟨h, q, g⟩).requestId = _
    unfold Job.response
    cases run h q <;> exact ⟨rfl, rfl⟩
  | _ => exact ⟨rfl, rfl⟩

end Handling

namespace OperationService

/-- How the service handles `q` from `session` at time `now` with the gates `a`, and the gates
after it. -/
def handling (s : OperationService κ) (a : Admission) (session now : Nat) (q : Request) :
    Handling κ × Admission :=
  if q.isPing then (.pong, a)
  else
    match a.enter session now with
    | (.error r, a) => (.rejected r, a)
    | (.ok g, a) =>
      match s.handlers.lookup q.operationCode with
      | some h => (.job h g, a)
      | none => (.unhandled, a.release g)

/-- Handling a request adds its job, or sends its answer at once. -/
theorem handleRequest_eq (run : κ → Request → Option Response) (s : OperationService κ) (now : Nat)
    (l : Link) (js : List (Job κ)) (q : Request) :
    s.handleRequest now (l, js) q =
      match s.handling l.admission l.session.id now q with
      | (.job h g, a) => ({ l with admission := a }, js ++ [⟨h, q, g⟩])
      | (p, a) => ({ l with admission := a }.reply (.response (p.answer run q)), js) := by
  unfold handleRequest handling
  cases ping : q.isPing
  · simp only [Bool.false_eq_true, if_false]
    cases l.admission.enter l.session.id now with
    | mk out a =>
      cases out with
      | error r => rfl
      | ok g => cases s.handlers.lookup q.operationCode <;> rfl
  · rfl

theorem handling_spec (s : OperationService κ) {a a' base : Admission} {held : List Guard}
    {session now : Nat} {q : Request} {p : Handling κ} (known : a.Known) (counts : a.Counts base held)
    (h : s.handling a session now q = (p, a')) :
    p.Fits s.handlers q ∧ a'.Known ∧ a'.Counts base (held ++ p.guard?.toList) := by
  unfold handling at h
  cases ping : q.isPing
  · simp only [ping, Bool.false_eq_true, if_false] at h
    cases entered : a.enter session now with
    | mk out a₁ =>
      rw [entered] at h
      cases out with
      | error r =>
        cases h
        obtain ⟨known', counts'⟩ := Admission.enter_error known entered
        exact ⟨ping, known', by simpa [Handling.guard?] using counts'.trans counts⟩
      | ok g =>
        obtain ⟨known', counts'⟩ := Admission.enter_ok known entered
        cases found : s.handlers.lookup q.operationCode with
        | some k =>
          rw [found] at h
          cases h
          exact ⟨⟨ping, found⟩, known', counts'.trans counts⟩
        | none =>
          rw [found] at h
          cases h
          -- the guard is given back at once
          have back := ((counts'.trans counts).perm (List.perm_append_singleton g held)).release
          exact ⟨⟨ping, found⟩, known'.release g, by simpa [Handling.guard?] using back⟩
  · simp only [ping, if_true] at h
    cases h
    exact ⟨ping, known, by simpa [Handling.guard?] using counts⟩

end OperationService

theorem OperationService.runJob_eq (run : κ → Request → Option Response) (l : Link) (j : Job κ) :
    OperationService.runJob run l j =
      { l.reply (.response (j.response run)) with admission := l.admission.release j.guard } := rfl

namespace Link

@[simp] theorem admission_reply (l : Link) (m : Message) : (l.reply m).admission = l.admission := rfl

@[simp] theorem connected_reply (l : Link) (m : Message) :
    (l.reply m).session.connected = l.session.connected := by
  simp only [reply, Session.sendMessage, Session.send]
  split <;> rfl

@[simp] theorem framing_reply (l : Link) (m : Message) : (l.reply m).session.framing = l.session.framing := by
  simp only [reply, Session.sendMessage, Session.send]
  split <;> rfl

theorem written_reply (l : Link) (m : Message) (connected : l.session.connected = true) :
    (l.reply m).session.written = l.session.written ++ Session.frameMessage l.session.framing m := by
  simp [reply, Session.sendMessage, Session.send, connected]

@[simp] theorem admission_close (l : Link) : l.close.admission = l.admission := rfl

@[simp] theorem connected_close (l : Link) : l.close.session.connected = false := by
  simp only [close, Session.disconnect]
  split <;> simp_all

@[simp] theorem id_close (l : Link) : l.close.session.id = l.session.id := by
  simp only [close, Session.disconnect]
  split <;> rfl

@[simp] theorem framing_close (l : Link) : l.close.session.framing = l.session.framing := by
  simp only [close, Session.disconnect]
  split <;> rfl

end Link

/-! ## The bench -/

/-- One session of an operation service with the received fiber: the service, the gates and the
session, the fiber, and the largest message the session's reader takes. The requests of a read
are handled one at a time (`inbox`; `faulty` when the read met a fault). `received` and `journal`
are a record kept for the proofs: the bytes read so far, and each request handled, with the way it
was handled. -/
structure OperationBench (κ : Type) where
  service : OperationService κ
  link : Link
  fiber : Fiber (Job κ)
  maxMessageSize : Nat
  inbox : List Request := []
  faulty : Bool := false
  received : List UInt8 := []
  journal : List (Request × Handling κ) := []

namespace OperationBench

variable (run : κ → Request → Option Response)

/-- A session that starts with `l`, served by `s` with the fiber `f` and messages of at most `max`
bytes, before anything has happened. -/
def start (s : OperationService κ) (l : Link) (f : Fiber (Job κ)) (max : Nat) : OperationBench κ :=
  { service := s, link := l, fiber := f, maxMessageSize := max }

def settle (b : OperationBench κ) : OperationBench κ :=
  if b.inbox = [] ∧ b.faulty = true then
    { b with service := b.service.disconnected b.link.session.id, link := b.link.close, faulty := false }
  else b

/-- The session's reader takes the bytes of a read and is drained: the requests among its
messages wait to be handled, and a fault closes the session once they are. -/
def read (b : OperationBench κ) (data : List UInt8) : OperationBench κ :=
  let id := b.link.session.id
  let (results, reader) := ((b.service.readerOf b.link b.maxMessageSize).push data).drain
  settle { b with
    service := { b.service with readers := (b.service.readers.filter (·.1 != id)) ++ [(id, reader)] }
    inbox := results.filterMap fun r => r.toOption.bind Message.request?
    faulty := results.any fun r => r.toOption.isNone
    received := b.received ++ data }

def submit (b : OperationBench κ) (j : Job κ) : OperationBench κ :=
  match b.fiber.enqueue j with
  | (true, f) => { b with fiber := f }
  | (false, f) => { b with fiber := f, link := { b.link with admission := b.link.admission.release j.guard } }

def handle (b : OperationBench κ) (now : Nat) : OperationBench κ :=
  match b.inbox with
  | [] => b
  | q :: rest =>
    let (l, jobs) := b.service.handleRequest now (b.link, []) q
    let way := (b.service.handling b.link.admission b.link.session.id now q).1
    settle (jobs.foldl submit { b with link := l, inbox := rest, journal := b.journal ++ [(q, way)] })

def work (b : OperationBench κ) (worker : Nat) : OperationBench κ :=
  match b.fiber.take worker with
  | some (j, f) => { b with fiber := f, link := OperationService.runJob run b.link j }
  | none => b

/-- What can happen next to a session on the bench. -/
inductive Action where
  /-- A read reaches the service; it waits while the last read's requests are being handled. -/
  | read (data : List UInt8)
  /-- The next request of the last read is handled at time `now`. -/
  | handle (now : Nat)
  /-- A worker of the fiber runs its next job. -/
  | work (worker : Nat)
  /-- The fiber stops taking jobs. -/
  | shutdown
  /-- The session is closed from elsewhere. -/
  | disconnect

def perform : Action → OperationBench κ → OperationBench κ
  | .read data, b => if b.inbox = [] ∧ b.faulty = false then b.read data else b
  | .handle now, b => b.handle now
  | .work worker, b => b.work run worker
  | .shutdown, b => { b with fiber := b.fiber.shutdown }
  | .disconnect, b => { b with link := b.link.close }

def steps (actions : List Action) (b : OperationBench κ) : OperationBench κ :=
  actions.foldl (fun b a => perform run a b) b

/-! ### One step at a time -/

theorem settle_of_sound {b : OperationBench κ} (h : b.faulty = false) : b.settle = b := by
  simp [settle, h]

theorem handle_nil {b : OperationBench κ} (empty : b.inbox = []) (now : Nat) : b.handle now = b := by
  simp [handle, empty]

theorem handle_cons (b : OperationBench κ) (now : Nat) {q : Request} {rest : List Request}
    (inbox : b.inbox = q :: rest) :
    b.handle now =
      settle (match b.service.handling b.link.admission b.link.session.id now q with
        | (.job k g, a) =>
          submit { b with link := { b.link with admission := a }, inbox := rest,
                          journal := b.journal ++ [(q, .job k g)] } ⟨k, q, g⟩
        | (p, a) =>
          { b with link := { b.link with admission := a }.reply (.response (p.answer run q)), inbox := rest,
                   journal := b.journal ++ [(q, p)] }) := by
  simp only [handle, inbox]
  rw [b.service.handleRequest_eq run]
  cases b.service.handling b.link.admission b.link.session.id now q with
  | mk p a => cases p <;> rfl

theorem submit_cases (b : OperationBench κ) (j : Job κ) :
    ((b.fiber.enqueue j).1 = true ∧ b.submit j = { b with fiber := (b.fiber.enqueue j).2 }) ∨
      ((b.fiber.enqueue j).1 = false ∧
        b.submit j = { b with fiber := (b.fiber.enqueue j).2,
                              link := { b.link with admission := b.link.admission.release j.guard } }) := by
  unfold submit
  cases b.fiber.enqueue j with
  | mk taken f => cases taken <;> simp

@[simp] theorem service_submit (b : OperationBench κ) (j : Job κ) : (b.submit j).service = b.service := by
  unfold submit
  split <;> rfl

@[simp] theorem session_submit (b : OperationBench κ) (j : Job κ) : (b.submit j).link.session = b.link.session := by
  unfold submit
  split <;> rfl

@[simp] theorem received_submit (b : OperationBench κ) (j : Job κ) : (b.submit j).received = b.received := by
  unfold submit
  split <;> rfl

@[simp] theorem faulty_submit (b : OperationBench κ) (j : Job κ) : (b.submit j).faulty = b.faulty := by
  unfold submit
  split <;> rfl

@[simp] theorem inbox_submit (b : OperationBench κ) (j : Job κ) : (b.submit j).inbox = b.inbox := by
  unfold submit
  split <;> rfl

@[simp] theorem journal_submit (b : OperationBench κ) (j : Job κ) : (b.submit j).journal = b.journal := by
  unfold submit
  split <;> rfl

@[simp] theorem maxMessageSize_submit (b : OperationBench κ) (j : Job κ) :
    (b.submit j).maxMessageSize = b.maxMessageSize := by
  unfold submit
  split <;> rfl

@[simp] theorem received_settle (b : OperationBench κ) : b.settle.received = b.received := by
  unfold settle
  split <;> rfl

@[simp] theorem maxMessageSize_settle (b : OperationBench κ) : b.settle.maxMessageSize = b.maxMessageSize := by
  unfold settle
  split <;> rfl

theorem read_eq (b : OperationBench κ) (data : List UInt8) {results : List (Except PeerError Message)}
    {reader : FrameReader} (drained : ((b.service.readerOf b.link b.maxMessageSize).push data).drain = (results, reader)) :
    b.read data = settle { b with
      service := { b.service with
        readers := (b.service.readers.filter (·.1 != b.link.session.id)) ++ [(b.link.session.id, reader)] }
      inbox := results.filterMap fun r => r.toOption.bind Message.request?
      faulty := results.any fun r => r.toOption.isNone
      received := b.received ++ data } := by
  unfold read
  rw [drained]

@[simp] theorem received_read (b : OperationBench κ) (data : List UInt8) :
    (b.read data).received = b.received ++ data := by
  unfold read
  simp

@[simp] theorem maxMessageSize_read (b : OperationBench κ) (data : List UInt8) :
    (b.read data).maxMessageSize = b.maxMessageSize := by
  unfold read
  simp

theorem work_cases (b : OperationBench κ) (worker : Nat) :
    b.work run worker = b ∨
      ∃ j f, b.work run worker = { b with fiber := f, link := OperationService.runJob run b.link j } := by
  unfold work
  split
  · next j f _ => exact .inr ⟨j, f, rfl⟩
  · exact .inl rfl

@[simp] theorem received_work (b : OperationBench κ) (worker : Nat) : (b.work run worker).received = b.received := by
  rcases work_cases run b worker with same | ⟨j, f, ran⟩ <;> simp [*]

@[simp] theorem maxMessageSize_work (b : OperationBench κ) (worker : Nat) :
    (b.work run worker).maxMessageSize = b.maxMessageSize := by
  rcases work_cases run b worker with same | ⟨j, f, ran⟩ <;> simp [*]

/-! ### Every request answered once -/

variable (s0 : OperationService κ) (l0 : Link)

/-- What holds of a bench whose session started as `l0`, served by `s0`, with handlers that answer
by `run`. -/
structure Sound (b : OperationBench κ) : Prop where
  sameHandlers : b.service.handlers = s0.handlers
  sameId : b.link.session.id = l0.session.id
  sameFraming : b.link.session.framing = l0.session.framing
  workers : 0 < b.fiber.queues.length
  known : b.link.admission.Known
  /-- Each request was handled in a way its handlers allow. -/
  routed : ∀ e ∈ b.journal, e.2.Fits s0.handlers e.1
  /-- While the session is connected and the fiber takes jobs, the responses written and the
  answers of the queued jobs are together the answers of the requests handled. -/
  answered : b.link.session.connected = true → b.fiber.accepting = true →
    ∃ replies : List Response,
      b.link.session.written =
        l0.session.written ++ (replies.map fun r => Session.frameMessage l0.session.framing (.response r)).flatten ∧
      (replies ++ b.fiber.waiting.map (Job.response run)).Perm (b.journal.map fun e => e.2.answer run e.1)
  /-- Each queued job holds one place in the gates' counts; nothing else does. -/
  counts : b.link.admission.Counts l0.admission (b.fiber.waiting.map (·.guard))

variable {run s0 l0}

theorem Sound.start (known : l0.admission.Known) (threads max : Nat) :
    Sound run s0 l0 (start s0 l0 (Fiber.create threads) max) where
  sameHandlers := rfl
  sameId := rfl
  sameFraming := rfl
  workers := Fiber.length_create_pos threads
  known := known
  routed := by simp [OperationBench.start]
  answered := fun _ _ => ⟨[], by simp [OperationBench.start], by simp [OperationBench.start]⟩
  counts := by simpa [OperationBench.start] using Admission.Counts.refl l0.admission

theorem Sound.settle {b : OperationBench κ} (h : Sound run s0 l0 b) : Sound run s0 l0 b.settle := by
  unfold OperationBench.settle
  split
  · exact { h with
      sameHandlers := h.sameHandlers
      sameId := by simpa using h.sameId
      sameFraming := by simpa using h.sameFraming
      answered := fun connected => by simp at connected }
  · exact h

theorem Sound.reply {b : OperationBench κ} (h : Sound run s0 l0 b) {q : Request} {p : Handling κ}
    {a : Admission} (rest : List Request) (fits : p.Fits s0.handlers q) (known : a.Known)
    (counts : a.Counts l0.admission (b.fiber.waiting.map (·.guard))) :
    Sound run s0 l0 { b with link := { b.link with admission := a }.reply (.response (p.answer run q)),
                             inbox := rest, journal := b.journal ++ [(q, p)] } where
  sameHandlers := h.sameHandlers
  sameId := by rw [Link.id_reply]; exact h.sameId
  sameFraming := by simpa using h.sameFraming
  workers := h.workers
  known := known
  routed := by
    intro e mem
    rcases List.mem_append.1 mem with earlier | last
    · exact h.routed e earlier
    · rw [List.mem_singleton.1 last]
      exact fits
  answered := by
    intro connected accepting
    simp only [Link.connected_reply] at connected
    obtain ⟨replies, written, perm⟩ := h.answered connected accepting
    refine ⟨replies ++ [p.answer run q], ?_, ?_⟩
    · rw [Link.written_reply { b.link with admission := a } _ connected]
      simp [written, h.sameFraming]
    · -- the answer joins the written ones and the record alike
      simp only [List.map_append, List.map_singleton, List.append_assoc, List.singleton_append]
      exact List.perm_middle.trans ((perm.cons _).trans (List.perm_append_singleton _ _).symm)
  counts := counts

theorem Sound.submit {b : OperationBench κ} (h : Sound run s0 l0 b) {q : Request} {k : κ} {g : Guard}
    {a : Admission} (rest : List Request) (fits : (Handling.job k g).Fits s0.handlers q) (known : a.Known)
    (counts : a.Counts l0.admission (b.fiber.waiting.map (·.guard) ++ [g])) :
    Sound run s0 l0 (submit { b with link := { b.link with admission := a }, inbox := rest,
                                     journal := b.journal ++ [(q, .job k g)] } ⟨k, q, g⟩) := by
  have routed : ∀ e ∈ b.journal ++ [(q, Handling.job k g)], e.2.Fits s0.handlers e.1 := by
    intro e mem
    rcases List.mem_append.1 mem with earlier | last
    · exact h.routed e earlier
    · rw [List.mem_singleton.1 last]
      exact fits
  rcases submit_cases { b with link := { b.link with admission := a }, inbox := rest,
                               journal := b.journal ++ [(q, .job k g)] } ⟨k, q, g⟩ with
    ⟨taken, queued⟩ | ⟨refused, dropped⟩
  · have waiting := Fiber.waiting_enqueue_of_taken taken
    rw [queued]
    refine { sameHandlers := h.sameHandlers, sameId := h.sameId, sameFraming := h.sameFraming,
             workers := by simpa using h.workers, known := known, routed := routed, answered := ?_,
             counts := counts.perm (by simpa using (waiting.map (·.guard)).symm) }
    intro connected accepting
    obtain ⟨replies, written, perm⟩ := h.answered connected (by simpa using accepting)
    refine ⟨replies, written, ?_⟩
    -- the job's answer is still to come, and the record has its request
    have later := (waiting.map (Job.response run)).append_left replies
    simp only [List.map_append, List.map_singleton] at later ⊢
    rw [← List.append_assoc] at later
    exact later.trans (perm.append_right [Job.response run ⟨k, q, g⟩])
  · have waiting := Fiber.waiting_enqueue_of_refused refused
    rw [dropped]
    refine { sameHandlers := h.sameHandlers, sameId := h.sameId, sameFraming := h.sameFraming,
             workers := by simpa using h.workers, known := known.release g, routed := routed,
             answered := ?_, counts := ?_ }
    · -- a fiber that takes jobs and has workers refuses none
      intro _ accepting
      have := Fiber.enqueue_taken b.fiber ⟨k, q, g⟩ (by simpa using accepting) h.workers
      simp_all
    · simpa [waiting] using (counts.perm (List.perm_append_singleton _ _)).release

theorem Sound.handle {b : OperationBench κ} (h : Sound run s0 l0 b) (now : Nat) :
    Sound run s0 l0 (b.handle now) := by
  cases inbox : b.inbox with
  | nil => rwa [handle_nil inbox]
  | cons q rest =>
    rw [handle_cons run b now inbox]
    apply Sound.settle
    rcases handled : b.service.handling b.link.admission b.link.session.id now q with ⟨p, a⟩
    obtain ⟨fits, known, counts⟩ := b.service.handling_spec h.known h.counts handled
    rw [h.sameHandlers] at fits
    cases p with
    | pong => exact h.reply rest fits known (by simpa [Handling.guard?] using counts)
    | rejected r => exact h.reply rest fits known (by simpa [Handling.guard?] using counts)
    | unhandled => exact h.reply rest fits known (by simpa [Handling.guard?] using counts)
    | job k g => exact h.submit rest fits known (by simpa [Handling.guard?] using counts)

theorem Sound.work {b : OperationBench κ} (h : Sound run s0 l0 b) (worker : Nat) :
    Sound run s0 l0 (b.work run worker) := by
  unfold OperationBench.work
  split
  · next j f taken =>
    obtain ⟨perm, length, accepting⟩ := Fiber.take_eq_some taken
    have guards : (j.guard :: f.waiting.map (·.guard)).Perm (b.fiber.waiting.map (·.guard)) := by
      simpa using perm.map (·.guard)
    refine { sameHandlers := h.sameHandlers, sameId := ?_, sameFraming := ?_, workers := length ▸ h.workers,
             known := ?_, routed := h.routed, answered := ?_, counts := ?_ }
    · rw [OperationService.runJob_eq, Link.id_reply]
      exact h.sameId
    · simpa [OperationService.runJob_eq] using h.sameFraming
    · exact h.known.release j.guard
    · intro connected takes
      rw [OperationService.runJob_eq] at connected
      simp only [Link.connected_reply] at connected
      obtain ⟨replies, written, answers⟩ := h.answered connected (accepting ▸ takes)
      refine ⟨replies ++ [j.response run], ?_, ?_⟩
      · rw [OperationService.runJob_eq, Link.written_reply _ _ connected]
        simp [written, h.sameFraming]
      · have moved := (perm.map (Job.response run)).append_left replies
        simp only [List.map_cons] at moved
        simpa only [List.append_assoc, List.singleton_append] using moved.trans answers
    · rw [OperationService.runJob_eq]
      exact (h.counts.perm guards.symm).release
  · exact h

theorem Sound.perform {b : OperationBench κ} (h : Sound run s0 l0 b) (action : Action) :
    Sound run s0 l0 (perform run action b) := by
  cases action with
  | read data =>
    simp only [OperationBench.perform]
    split
    · unfold OperationBench.read
      exact Sound.settle { h with sameHandlers := h.sameHandlers }
    · exact h
  | handle now => exact h.handle now
  | work worker => exact h.work worker
  | shutdown =>
    show Sound run s0 l0 { b with fiber := b.fiber.shutdown }
    exact { h with
      workers := by simpa using h.workers
      answered := fun _ accepting => by simp at accepting
      counts := by simpa using h.counts }
  | disconnect =>
    show Sound run s0 l0 { b with link := b.link.close }
    exact { h with
      sameId := by simpa using h.sameId
      sameFraming := by simpa using h.sameFraming
      known := by simpa using h.known
      answered := fun connected => by simp at connected
      counts := by simpa using h.counts }

theorem Sound.steps {b : OperationBench κ} (h : Sound run s0 l0 b) (actions : List Action) :
    Sound run s0 l0 (steps run actions b) := by
  induction actions generalizing b with
  | nil => exact h
  | cons action actions ih => exact ih (h.perform action)

/-! ### Requests in stream order -/

/-- What the reads so far have brought, once they are the start of the frames of `ms`: the reader
holds the start of a frame, less than all of it, after the frames of the first `k` messages; no read
met a fault; and the requests handled, then those still to handle, are the requests among those
`k` messages. -/
def Reading (ms : List Message) (b : OperationBench κ) : Prop :=
  List.IsPrefix b.received (frames ms) → ∃ k,
    b.received = frames (ms.take k) ++ (b.service.readerOf b.link b.maxMessageSize).buffer ∧
    Waiting (b.service.readerOf b.link b.maxMessageSize).buffer (ms.drop k) ∧
    (b.service.readerOf b.link b.maxMessageSize).maxMessageSize = b.maxMessageSize ∧
    b.faulty = false ∧
    b.journal.map Prod.fst ++ b.inbox = (ms.take k).filterMap Message.request?

@[simp] theorem received_handle (b : OperationBench κ) (now : Nat) : (b.handle now).received = b.received := by
  cases inbox : b.inbox with
  | nil => rw [handle_nil inbox]
  | cons q rest =>
    rw [handle_cons (fun _ _ => none) b now inbox]
    cases b.service.handling b.link.admission b.link.session.id now q with
    | mk p a => cases p <;> simp

@[simp] theorem maxMessageSize_handle (b : OperationBench κ) (now : Nat) :
    (b.handle now).maxMessageSize = b.maxMessageSize := by
  cases inbox : b.inbox with
  | nil => rw [handle_nil inbox]
  | cons q rest =>
    rw [handle_cons (fun _ _ => none) b now inbox]
    cases b.service.handling b.link.admission b.link.session.id now q with
    | mk p a => cases p <;> simp

theorem handle_of_sound {b : OperationBench κ} (sound : b.faulty = false) (now : Nat) :
    (b.handle now).service = b.service ∧ (b.handle now).link.session.id = b.link.session.id ∧
      (b.handle now).faulty = false ∧
      (b.handle now).journal.map Prod.fst ++ (b.handle now).inbox = b.journal.map Prod.fst ++ b.inbox := by
  cases inbox : b.inbox with
  | nil =>
    rw [handle_nil inbox]
    exact ⟨rfl, rfl, sound, by rw [inbox]⟩
  | cons q rest =>
    rw [handle_cons (fun _ _ => none) b now inbox]
    cases b.service.handling b.link.admission b.link.session.id now q with
    | mk p a => cases p <;> simp [settle, sound, Link.id_reply]

theorem Reading.of_steady {ms : List Message} {b b' : OperationBench κ} (h : Reading ms b)
    (received : b'.received = b.received) (max : b'.maxMessageSize = b.maxMessageSize)
    (steady : b.faulty = false → b'.service = b.service ∧ b'.link.session.id = b.link.session.id ∧
      b'.faulty = false ∧ b'.journal.map Prod.fst ++ b'.inbox = b.journal.map Prod.fst ++ b.inbox) :
    Reading ms b' := by
  intro sofar
  rw [received] at sofar
  obtain ⟨k, whole, waiting, size, sound, handled⟩ := h sofar
  obtain ⟨service, id, sound', handled'⟩ := steady sound
  have reader : b'.service.readerOf b'.link b'.maxMessageSize = b.service.readerOf b.link b.maxMessageSize := by
    simp [OperationService.readerOf, service, id, max]
  rw [reader, received, max]
  exact ⟨k, whole, waiting, size, sound', handled'.trans handled⟩

theorem Reading.read {ms : List Message} {b : OperationBench κ} (framed : ∀ m ∈ ms, m.Framed b.maxMessageSize)
    (h : Reading ms b) (empty : b.inbox = []) (data : List UInt8) : Reading ms (b.read data) := by
  intro sofar
  have bytes : (b.read data).received = b.received ++ data := by
    unfold OperationBench.read
    simp
  rw [bytes] at sofar
  obtain ⟨k, whole, waiting, size, -, handled⟩ := h ((List.prefix_append _ _).trans sofar)
  obtain ⟨more, stream⟩ := sofar
  -- what the reader held, this read and the bytes still to come are the frames of the messages left
  have held : (b.service.readerOf b.link b.maxMessageSize).buffer ++ data ++ more = frames (ms.drop k) := by
    have total : frames (ms.take k) ++ ((b.service.readerOf b.link b.maxMessageSize).buffer ++ data ++ more) =
        frames (ms.take k) ++ frames (ms.drop k) := by
      rw [frames_take_append_drop, ← stream, whole]
      simp
    exact List.append_cancel_left total
  obtain ⟨k', rest, split, waits, drained⟩ :=
    FrameReader.drain_push held fun m mem => by rw [size]; exact framed m (List.mem_of_mem_drop mem)
  -- the drain took whole messages only: no fault, and their requests
  have clean : (((ms.drop k).take k').map fun m => (Except.ok m.received : Except PeerError Message)).any
      (fun r => r.toOption.isNone) = false := by
    rw [List.any_eq_false]
    intro x mem
    obtain ⟨m, -, rfl⟩ := List.mem_map.1 mem
    exact Bool.false_ne_true
  have requests : (((ms.drop k).take k').map fun m => (Except.ok m.received : Except PeerError Message)).filterMap
      (fun r => r.toOption.bind Message.request?) = ((ms.drop k).take k').filterMap Message.request? := by
    rw [List.filterMap_map]
    exact List.filterMap_congr fun m _ => request?_received m
  rw [read_eq b data drained, settle_of_sound clean]
  have reader : ({ b.service with readers := (b.service.readers.filter (·.1 != b.link.session.id)) ++
      [(b.link.session.id, { b.service.readerOf b.link b.maxMessageSize with buffer := rest })] } :
        OperationService κ).readerOf b.link b.maxMessageSize =
      { b.service.readerOf b.link b.maxMessageSize with buffer := rest } := by
    simp only [OperationService.readerOf, OperationService.lookup_setReader, Option.getD_some]
  refine ⟨k + k', ?_, ?_, ?_, clean, ?_⟩
  · rw [reader, whole, List.append_assoc, split, List.take_add, frames_append, List.append_assoc]
  · rw [reader]
    simpa [List.drop_drop] using waits
  · rw [reader]
    exact size
  · rw [empty, List.append_nil] at handled
    show b.journal.map Prod.fst ++ _ = _
    rw [requests, handled, List.take_add, List.filterMap_append]

@[simp] theorem maxMessageSize_perform (action : Action) (b : OperationBench κ) :
    (perform run action b).maxMessageSize = b.maxMessageSize := by
  cases action with
  | read data =>
    simp only [perform]
    split <;> simp
  | handle now => simp [perform]
  | work worker => simp [perform]
  | shutdown => rfl
  | disconnect => rfl

theorem Reading.start (s : OperationService κ) (l : Link) (f : Fiber (Job κ)) (max : Nat)
    (fresh : s.readers.lookup l.session.id = none) (ms : List Message) :
    Reading ms (OperationBench.start s l f max) := by
  intro _
  have reader : s.readerOf l max = { maxMessageSize := max } := by
    simp [OperationService.readerOf, fresh]
  refine ⟨0, ?_, ?_, ?_, rfl, rfl⟩ <;> simp [OperationBench.start, reader, waiting_nil]

theorem Reading.perform {ms : List Message} {b : OperationBench κ} (framed : ∀ m ∈ ms, m.Framed b.maxMessageSize)
    (h : Reading ms b) (action : Action) : Reading ms (perform run action b) := by
  cases action with
  | read data =>
    simp only [OperationBench.perform]
    split
    · next ready => exact h.read framed ready.1 data
    · exact h
  | handle now =>
    exact h.of_steady (received_handle b now) (maxMessageSize_handle b now) fun sound => handle_of_sound sound now
  | work worker =>
    rcases work_cases run b worker with same | ⟨j, f, ran⟩
    · show Reading ms (b.work run worker)
      rwa [same]
    · show Reading ms (b.work run worker)
      rw [ran]
      exact h.of_steady rfl rfl fun sound => ⟨rfl, by rw [OperationService.runJob_eq, Link.id_reply], sound, rfl⟩
  | shutdown => exact h.of_steady rfl rfl fun sound => ⟨rfl, rfl, sound, rfl⟩
  | disconnect => exact h.of_steady rfl rfl fun sound => ⟨rfl, Link.id_close b.link, sound, rfl⟩

theorem Reading.steps {ms : List Message} {b : OperationBench κ} (framed : ∀ m ∈ ms, m.Framed b.maxMessageSize)
    (h : Reading ms b) (actions : List Action) : Reading ms (steps run actions b) := by
  induction actions generalizing b with
  | nil => exact h
  | cons action actions ih =>
    exact ih (by rw [maxMessageSize_perform]; exact framed) (h.perform framed action)

end OperationBench

theorem take_eq_of_waiting {ms : List Message} {k : Nat} {held : List UInt8} (waiting : Waiting held (ms.drop k))
    (whole : frames (ms.take k) ++ held = frames ms) : ms.take k = ms := by
  have rest : held = frames (ms.drop k) :=
    List.append_cancel_left (whole.trans (frames_take_append_drop ms k).symm)
  have none : ms.drop k = [] := eq_nil_of_waiting_frames (rest ▸ waiting)
  exact List.take_of_length_le (List.drop_eq_nil_iff.1 none)

/-- An operation service serving one session whose bytes are the frames of the messages `ms`, read
in any pieces, while the received fiber's workers run the queued jobs in any interleaving with the
reads and the handling, and the fiber may stop taking jobs or the session close. With handlers
that answer by `run` (none when a handler fails), after every run:
* the requests handled, then those still to handle, are the requests among the messages read so
  far, in stream order, and all the stream's requests once every byte has been read;
* each request was handled in a way its handlers allow, and its answer carries its code and id;
* while the session is connected and the fiber takes jobs, the session has been sent exactly the
  answers of the requests handled, less those of the jobs still queued, each framed as the session
  frames messages;
* the gates count, beyond their counts at the start, one place per queued job and none for any
  other request, so each guard is given back exactly once;
* a ping is answered at once with its payload and leaves the gates untouched. -/
theorem operation_requests_are_answered_once (run : κ → Request → Option Response) (s : OperationService κ)
    (l : Link) (threads max : Nat) (known : l.admission.Known) (fresh : s.readers.lookup l.session.id = none)
    (ms : List Message) (framed : ∀ m ∈ ms, m.Framed max) (actions : List OperationBench.Action)
    (sofar : List.IsPrefix ((OperationBench.start s l (Fiber.create threads) max).steps run actions).received
      (frames ms)) :
    let b := (OperationBench.start s l (Fiber.create threads) max).steps run actions
    (∃ k, b.journal.map Prod.fst ++ b.inbox = (ms.take k).filterMap Message.request?) ∧
      (b.received = frames ms → b.journal.map Prod.fst ++ b.inbox = ms.filterMap Message.request?) ∧
      (∀ e ∈ b.journal, e.2.Fits s.handlers e.1 ∧
        (e.2.answer run e.1).operationCode = e.1.operationCode ∧ (e.2.answer run e.1).requestId = e.1.requestId) ∧
      (b.link.session.connected = true → b.fiber.accepting = true → ∃ replies : List Response,
        b.link.session.written =
          l.session.written ++ (replies.map fun r => Session.frameMessage l.session.framing (.response r)).flatten ∧
        (replies ++ b.fiber.waiting.map (Job.response run)).Perm (b.journal.map fun e => e.2.answer run e.1)) ∧
      b.link.admission.Counts l.admission (b.fiber.waiting.map (·.guard)) ∧
      ∀ (now : Nat) (l' : Link) (js : List (Job κ)) (q : Request), q.isPing = true →
        s.handleRequest now (l', js) q = (l'.reply (.response ((Response.forRequest q .ok).withPayload q.payload)), js) := by
  intro b
  have sound : OperationBench.Sound run s l b := (OperationBench.Sound.start known threads max).steps actions
  have reading : OperationBench.Reading ms b :=
    (OperationBench.Reading.start s l (Fiber.create threads) max fresh ms).steps framed actions
  obtain ⟨k, received, waiting, -, -, handled⟩ := reading sofar
  refine ⟨⟨k, handled⟩, fun whole => ?_, fun e _ => ⟨sound.routed e ‹_›, e.2.answer_ids run e.1⟩,
    sound.answered, sound.counts, fun now l' js q ping => ?_⟩
  · rw [handled, take_eq_of_waiting waiting (received.symm.trans whole)]
  · rw [s.handleRequest_eq run]
    simp only [OperationService.handling, ping, if_true]
    rfl

/-- A ping, a request with a handler and one without, read at once, all handled and the job run:
every request of the stream has been handled. -/
theorem ping_and_two_requests_read_at_once_are_all_handled :
    ({ limits := {} } : Admission).Known ∧
      ({ handlers := [(1, ())] } : OperationService Unit).readers.lookup
        (⟨{ limits := {} }, { id := 5 }⟩ : Link).session.id = none ∧
      (∀ m ∈ [Message.request ⟨pingCode, 1, [7], false⟩, .request ⟨1, 2, [], false⟩, .request ⟨2, 3, [], false⟩],
        m.Framed 64) ∧
      List.IsPrefix ((OperationBench.start ({ handlers := [(1, ())] } : OperationService Unit)
          ⟨{ limits := {} }, { id := 5 }⟩ (Fiber.create 1) 64).steps (fun _ q => some (Response.forRequest q .ok))
          [.read (frames [.request ⟨pingCode, 1, [7], false⟩, .request ⟨1, 2, [], false⟩, .request ⟨2, 3, [], false⟩]),
            .handle 0, .handle 0, .handle 0, .work 0]).received
        (frames [.request ⟨pingCode, 1, [7], false⟩, .request ⟨1, 2, [], false⟩, .request ⟨2, 3, [], false⟩]) ∧
      ((OperationBench.start ({ handlers := [(1, ())] } : OperationService Unit)
          ⟨{ limits := {} }, { id := 5 }⟩ (Fiber.create 1) 64).steps (fun _ q => some (Response.forRequest q .ok))
          [.read (frames [.request ⟨pingCode, 1, [7], false⟩, .request ⟨1, 2, [], false⟩, .request ⟨2, 3, [], false⟩]),
            .handle 0, .handle 0, .handle 0, .work 0]).journal.map Prod.fst ++
        ((OperationBench.start ({ handlers := [(1, ())] } : OperationService Unit)
          ⟨{ limits := {} }, { id := 5 }⟩ (Fiber.create 1) 64).steps (fun _ q => some (Response.forRequest q .ok))
          [.read (frames [.request ⟨pingCode, 1, [7], false⟩, .request ⟨1, 2, [], false⟩, .request ⟨2, 3, [], false⟩]),
            .handle 0, .handle 0, .handle 0, .work 0]).inbox =
        [⟨pingCode, 1, [7], false⟩, ⟨1, 2, [], false⟩, ⟨2, 3, [], false⟩] := by
  have known : ({ limits := {} } : Admission).Known := by
    intro p mem
    cases mem
  have framed : ∀ m ∈ [Message.request ⟨pingCode, 1, [7], false⟩, .request ⟨1, 2, [], false⟩,
      .request ⟨2, 3, [], false⟩], m.Framed 64 := by
    intro m mem
    simp only [List.mem_cons, List.not_mem_nil, or_false] at mem
    rcases mem with rfl | rfl | rfl <;> exact ⟨by decide, by decide +kernel, by decide +kernel⟩
  have whole : ((OperationBench.start ({ handlers := [(1, ())] } : OperationService Unit)
      ⟨{ limits := {} }, { id := 5 }⟩ (Fiber.create 1) 64).steps (fun _ q => some (Response.forRequest q .ok))
      [.read (frames [.request ⟨pingCode, 1, [7], false⟩, .request ⟨1, 2, [], false⟩, .request ⟨2, 3, [], false⟩]),
        .handle 0, .handle 0, .handle 0, .work 0]).received =
      frames [.request ⟨pingCode, 1, [7], false⟩, .request ⟨1, 2, [], false⟩, .request ⟨2, 3, [], false⟩] := by
    simp [OperationBench.steps, OperationBench.perform, OperationBench.start]
  obtain ⟨-, all, -⟩ := operation_requests_are_answered_once (fun _ q => some (Response.forRequest q .ok))
    ({ handlers := [(1, ())] } : OperationService Unit) ⟨{ limits := {} }, { id := 5 }⟩ 1 64 known rfl _ framed
    [.read (frames [.request ⟨pingCode, 1, [7], false⟩, .request ⟨1, 2, [], false⟩, .request ⟨2, 3, [], false⟩]),
      .handle 0, .handle 0, .handle 0, .work 0] (whole ▸ List.prefix_refl _)
  exact ⟨known, rfl, framed, whole ▸ List.prefix_refl _, all whole⟩

end Switchboard.Server
