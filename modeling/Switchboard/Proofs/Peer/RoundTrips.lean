import Mathlib.Data.List.DropRight
import Switchboard.Proofs.Peer.Schedule

/-!
# Round-trip times of a client peer

The times a peer keeps are the latest round-trip times of the requests service calls have
concluded, in order, as many as its window holds (`Action.records_run`). The average counts them as
a 32-bit number, so it panics or divides by a wrapped count beyond that (`averageRtt?_eq`).
-/

namespace Switchboard.Peer

/-! ## The latest entries of a list -/

section Latest

variable {α : Type} (l : List α) (n : Nat)

theorem length_rtake : (l.rtake n).length = min n l.length := by
  rw [List.rtake, List.length_drop]
  omega

theorem rtake_eq_nil_iff (positive : 0 < n) : l.rtake n = [] ↔ l = [] := by
  rw [← List.length_eq_zero_iff, length_rtake, ← List.length_eq_zero_iff]
  omega

theorem rtake_of_length_le (short : l.length ≤ n) : l.rtake n = l := by
  rw [List.rtake, Nat.sub_eq_zero_of_le short, List.drop_zero]

theorem rtake_rtake (m : Nat) : (l.rtake m).rtake n = l.rtake (min n m) := by
  simp only [List.rtake_eq_reverse_take_reverse, List.reverse_reverse, List.take_take]

theorem rtake_concat_rtake (x : α) : (l.rtake n ++ [x]).rtake n = (l ++ [x]).rtake n := by
  cases n with
  | zero => simp
  | succ n =>
    rw [List.rtake_concat_succ, List.rtake_concat_succ, rtake_rtake, Nat.min_eq_left (Nat.le_succ n)]

end Latest

theorem filterMap_cons_eq {α β : Type} (f : α → Option β) (a : α) (l : List α) :
    (a :: l).filterMap f = (f a).toList ++ l.filterMap f := by
  cases h : f a <;> simp [h]

/-! ## Round-trip times of a request -/

namespace Pending

variable {κ : Type}

theorem rtt?_eq_some_iff (q : Pending κ) (r : Nat) :
    q.rtt? = some r ↔ ∃ res s, q.resolution = some res ∧ res.synthetic = false ∧ q.sentAt = some s ∧
      r = res.receivedAt - s := by
  unfold rtt?
  rcases q.resolution with _ | res <;> rcases q.sentAt with _ | s
  · simp
  · simp
  · simp
  · cases synthetic : res.synthetic
    · simp only [synthetic, Bool.false_eq_true, if_false, Option.some.injEq, exists_and_left,
        exists_eq_left', true_and]
      exact eq_comm
    · simp [synthetic]

theorem rtt?_of_open {q : Pending κ} (open_ : q.hasResponse = false) : q.rtt? = none := by
  simp only [hasResponse, Option.isSome_eq_false_iff, Option.isNone_iff_eq_none] at open_
  simp [rtt?, open_]

theorem filterMap_rtt?_filter (qs : List (Pending κ)) :
    (qs.filter (·.hasResponse)).filterMap rtt? = qs.filterMap rtt? := by
  induction qs with
  | nil => rfl
  | cons q qs ih =>
    cases settled : q.hasResponse
    · rw [List.filter_cons_of_neg (by simp [settled]), ih, filterMap_cons_eq, rtt?_of_open settled]
      rfl
    · rw [List.filter_cons_of_pos (by simp [settled]), filterMap_cons_eq, filterMap_cons_eq, ih]

end Pending

/-! ## Recording round-trip times -/

namespace ClientPeer

variable {τ κ : Type}

def rttWindow (p : ClientPeer τ κ) : Nat := max p.settings.maxRttSamples 1

/-- `p'` comes from `p` by recording the round-trip times `more`, in order: it has the settings of
`p`, and whenever `p` keeps the latest of some times, `p'` keeps the latest of those followed by
`more`. -/
structure Records (p p' : ClientPeer τ κ) (more : List Nat) : Prop where
  settings : p'.settings = p.settings
  samples : ∀ trips, p.rttSamples = trips.rtake p.rttWindow → p'.rttSamples = (trips ++ more).rtake p.rttWindow

namespace Records

variable {p p' p'' : ClientPeer τ κ} {more more' : List Nat}

theorem window (h : Records p p' more) : p'.rttWindow = p.rttWindow := by
  simp only [rttWindow, h.settings]

theorem of_eq (samples : p'.rttSamples = p.rttSamples) (settings : p'.settings = p.settings) :
    Records p p' [] where
  settings := settings
  samples trips kept := by rw [List.append_nil, samples, kept]

theorem refl (p : ClientPeer τ κ) : Records p p [] := of_eq rfl rfl

theorem trans (h : Records p p' more) (h' : Records p' p'' more') : Records p p'' (more ++ more') where
  settings := h'.settings.trans h.settings
  samples trips kept := by
    have middle := h.samples trips kept
    rw [← h.window] at middle
    rw [← List.append_assoc, ← h.window]
    exact h'.samples _ middle

theorem nil_trans (h : Records p p' []) (h' : Records p' p'' more) : Records p p'' more := by
  simpa only [List.nil_append] using h.trans h'

theorem trans_nil (h : Records p p' more) (h' : Records p' p'' []) : Records p p'' more := by
  simpa only [List.append_nil] using h.trans h'

end Records

theorem records_recordRtt (p : ClientPeer τ κ) (q : Pending κ) : Records p (p.recordRtt q) q.rtt?.toList where
  settings := by
    unfold recordRtt addRttSample
    split <;> rfl
  samples trips kept := by
    unfold recordRtt
    split
    · next r timed =>
      show (p.rttSamples ++ [r]).rtake p.rttWindow = _
      rw [kept, rtake_concat_rtake, timed]
      rfl
    · next untimed =>
      rw [untimed, Option.toList_none, List.append_nil]
      exact kept

section Conclude

variable {ρ : Type} {run : κ → Response → ClientPeer τ κ → ClientPeer τ κ × List ρ}

theorem records_conclude (keeps : ∀ c r p, Records p (run c r p).1 []) (acc : ClientPeer τ κ × List ρ)
    (q : Pending κ) : Records acc.1 (conclude run acc q).1 q.rtt?.toList := by
  rcases conclude_cases run acc q with ⟨open_, same⟩ | ⟨-, -, recorded⟩ | ⟨c, r, -, -, called⟩
  · rw [same, Pending.rtt?_of_open open_, Option.toList_none]
    exact Records.refl acc.1
  · rw [recorded]
    exact records_recordRtt acc.1 q
  · -- the callback runs on the peer that has just recorded the time
    rw [called]
    exact (records_recordRtt acc.1 q).trans_nil (keeps c r _)

theorem records_foldl_conclude (keeps : ∀ c r p, Records p (run c r p).1 []) (qs : List (Pending κ))
    (acc : ClientPeer τ κ × List ρ) : Records acc.1 (qs.foldl (conclude run) acc).1 (qs.filterMap Pending.rtt?) := by
  induction qs generalizing acc with
  | nil => exact Records.refl acc.1
  | cons q qs ih =>
    rw [List.foldl_cons, filterMap_cons_eq]
    exact (records_conclude keeps acc q).trans (ih _)

end Conclude

/-- The average of the times kept: `some none` when there is none, otherwise their sum over their
count taken modulo `2 ^ 32`, and a panic (`none`) when the sum passes the longest duration or that
count is zero. -/
theorem averageRtt?_eq (p : ClientPeer τ κ) :
    p.averageRtt? = if p.rttSamples = [] then some none
      else if durationMax < p.rttSamples.sum ∨ p.rttSamples.length % Nat.pow 2 32 = 0 then none
      else some (some (p.rttSamples.sum / (p.rttSamples.length % Nat.pow 2 32))) := by
  unfold averageRtt?
  rw [List.sum_eq_foldl_nat]
  by_cases empty : p.rttSamples = []
  · simp [empty]
  · simp only [empty, if_false, List.isEmpty_eq_false_iff.2 empty, Bool.false_eq_true]

/-! ## What a service call records -/

variable [Transport τ]

/-- The requests a service call at `now` concludes, in order: those waiting, once the messages
received are handed on and the timeouts applied, that are settled. -/
def concluded (p : ClientPeer τ κ) (now : Nat) : List (Pending κ) :=
  let drained := Transport.drain p.transport
  let received := drained.1.foldl (dispatch now) ({ p with transport := drained.2 }, [])
  (received.1.expire now).waiting.filter (·.hasResponse)

theorem records_transmit (p p₀ : ClientPeer τ κ) (samples : p₀.rttSamples = p.rttSamples)
    (settings : p₀.settings = p.settings) (q : Pending κ) (now : Nat) : Records p (p₀.transmit q now) [] := by
  unfold transmit
  exact Records.of_eq samples settings

theorem records_flush (p : ClientPeer τ κ) (now : Nat) : Records p (p.flush now) [] := by
  have pinged : Records p (p.pingIfDue now) [] := by
    unfold pingIfDue
    split
    · split
      · refine records_transmit p _ ?_ ?_ _ now <;> rfl
      · exact Records.refl p
    · exact Records.refl p
  have sent : ∀ p' : ClientPeer τ κ, Records p' (p'.sendIfDue now) [] := by
    intro p'
    unfold sendIfDue
    split
    · split
      · refine records_transmit p' _ ?_ ?_ _ now <;> rfl
      · refine records_transmit p' _ ?_ ?_ _ now <;> rfl
      · exact Records.refl p'
    · exact Records.refl p'
  unfold flush
  split
  · exact Records.refl p
  · exact pinged.nil_trans (sent _)

/-- A service call whose callbacks record nothing records the times of the requests it concludes,
in order. -/
theorem records_service {ρ : Type} {run : κ → Response → ClientPeer τ κ → ClientPeer τ κ × List ρ}
    (keeps : ∀ c r p, Records p (run c r p).1 []) (p : ClientPeer τ κ) (now : Nat) :
    Records p (p.service now run).1 ((p.concluded now).filterMap Pending.rtt?) := by
  -- handing on the messages received changes only the waiting requests
  obtain ⟨w, received, -⟩ := foldl_dispatch now (Transport.drain p.transport).1
    ({ p with transport := (Transport.drain p.transport).2 }, [])
  set p₂ := ((Transport.drain p.transport).1.foldl (dispatch now)
    ({ p with transport := (Transport.drain p.transport).2 }, [])).1
  have handed : Records p (p₂.expire now) [] := by
    show Records p { p₂ with waiting := _ } []
    rw [received]
    exact Records.of_eq rfl rfl
  have concluded_eq : p.concluded now = (p₂.expire now).waiting.filter (·.hasResponse) := rfl
  set concluded := (p₂.expire now).waiting.foldl (conclude run) (p₂.expire now, [])
  have dropped : Records concluded.1 (concluded.1.dropSettled (p₂.expire now).waiting) [] := Records.of_eq rfl rfl
  rw [service_fst, concluded_eq, Pending.filterMap_rtt?_filter]
  show Records p ((concluded.1.dropSettled (p₂.expire now).waiting).flush now) _
  exact ((handed.nil_trans (records_foldl_conclude keeps _ (p₂.expire now, []))).trans_nil dropped).trans_nil
    (records_flush _ now)

/-! ## Round-trip times on the bench -/

theorem records_submit (p : ClientPeer Recorder Ticket) (s : Submission) : Records p (p.submit s) [] := by
  have queued : Records p (p.enqueue s.request s.parameters s.timeout (some (s.ticket p))).2 [] := by
    unfold enqueue
    split
    · exact Records.refl p
    · simp only [takeRequestId]
      split <;> exact Records.of_eq rfl rfl
  unfold submit
  split
  · next p' taken =>
    rw [taken] at queued
    -- noting the ticket touches only the journal
    exact queued.nil_trans (Records.of_eq rfl rfl)
  · next p' refused =>
    rw [refused] at queued
    exact queued

theorem records_answer (script : Ticket → Response → List Submission) (t : Ticket) (r : Response)
    (p : ClientPeer Recorder Ticket) : Records p (answer script t r p).1 [] := by
  have submitted : ∀ (ss : List Submission) (p : ClientPeer Recorder Ticket), Records p (ss.foldl submit p) [] := by
    intro ss
    induction ss with
    | nil => exact Records.refl
    | cons s ss ih =>
      intro p
      rw [List.foldl_cons]
      exact (records_submit p s).nil_trans (ih _)
  have noted : Records p (p.note (.called p.transport.clock t r)) [] := Records.of_eq rfl rfl
  exact noted.nil_trans (submitted _ _)

end ClientPeer
namespace Action

/-- The requests an action concludes: those a service call concludes at its instant, and none for
any other action. -/
def concluded : Action → ClientPeer Recorder Ticket → List (Pending Ticket)
  | .service wait, p =>
    ({ p with transport := { p.transport with clock := p.transport.clock + wait } } :
      ClientPeer Recorder Ticket).concluded (p.transport.clock + wait)
  | _, _ => []

def history (script : Ticket → Response → List Submission) :
    List Action → ClientPeer Recorder Ticket → List (Pending Ticket)
  | [], _ => []
  | a :: rest, p => a.concluded p ++ history script rest (a.perform script p)

theorem run_append (script : Ticket → Response → List Submission) (first rest : List Action)
    (p : ClientPeer Recorder Ticket) : run script (first ++ rest) p = run script rest (run script first p) :=
  List.foldl_append

theorem records_perform (script : Ticket → Response → List Submission) (a : Action) (p : ClientPeer Recorder Ticket) :
    ClientPeer.Records p (a.perform script p) ((a.concluded p).filterMap Pending.rtt?) := by
  cases a with
  | send s => exact ClientPeer.records_submit p s
  | respond r now =>
    obtain ⟨w, eq, -⟩ := ClientPeer.onResponse_spec (p.note (.received (.response r))) r now
    show ClientPeer.Records p ((p.note _).onResponse r now).2 []
    rw [eq]
    exact ClientPeer.Records.of_eq rfl rfl
  | arrive m | failSends broken | disconnect => exact ClientPeer.Records.of_eq rfl rfl
  | service wait =>
    -- the call runs on the peer with its clock moved on, which has the same times and settings
    have moved : ClientPeer.Records p
        { p with transport := { p.transport with clock := p.transport.clock + wait } } [] :=
      ClientPeer.Records.of_eq rfl rfl
    exact moved.nil_trans
      (ClientPeer.records_service (ClientPeer.records_answer script) _ (p.transport.clock + wait))

/-- A run records the round-trip times of the requests its service calls conclude, in order. -/
theorem records_run (script : Ticket → Response → List Submission) (actions : List Action)
    (p : ClientPeer Recorder Ticket) :
    ClientPeer.Records p (run script actions p) ((history script actions p).filterMap Pending.rtt?) := by
  induction actions generalizing p with
  | nil => exact ClientPeer.Records.refl p
  | cons a rest ih =>
    rw [history, List.filterMap_append]
    exact (records_perform script a p).trans (ih _)

end Action

/-! ## The times a peer keeps -/

/-- On the bench, whatever the settings, the callbacks' script and the actions: the round-trip times
a peer keeps are the latest of the times of the requests its service calls concluded, pings among
them, in the order they were concluded, as many as `max 1 maxRttSamples` allows; a request has a
time exactly when a real response settled it after its send, and then the time from the send to the
response, so a timeout or a failed send adds none. The average is `some none` exactly when no time
was recorded. Otherwise the sum of the times kept is divided by their count taken modulo `2 ^ 32`,
and a sum past the longest duration or a count that is a multiple of `2 ^ 32` panics; with a window
below `2 ^ 32` and a sum within the longest duration, the average is the sum over the count, rounded
down. -/
theorem rtt_samples_are_the_latest_real_round_trips (settings : ClientSettings)
    (script : Ticket → Response → List Submission) (actions : List Action) :
    let p := Action.run script actions (ClientPeer.onBench settings)
    let trips := (Action.history script actions (ClientPeer.onBench settings)).filterMap Pending.rtt?
    p.rttSamples = trips.rtake (max settings.maxRttSamples 1) ∧
      (∀ q ∈ Action.history script actions (ClientPeer.onBench settings), ∀ r, q.rtt? = some r ↔
        ∃ res s, q.resolution = some res ∧ res.synthetic = false ∧ q.sentAt = some s ∧
          r = res.receivedAt - s) ∧
      (p.averageRtt? = some none ↔ trips = []) ∧
      (trips ≠ [] → p.averageRtt? =
        if durationMax < p.rttSamples.sum ∨ p.rttSamples.length % Nat.pow 2 32 = 0 then none
        else some (some (p.rttSamples.sum / (p.rttSamples.length % Nat.pow 2 32)))) ∧
      (max settings.maxRttSamples 1 < Nat.pow 2 32 → p.rttSamples.sum ≤ durationMax → trips ≠ [] →
        p.averageRtt? = some (some (p.rttSamples.sum / p.rttSamples.length))) := by
  intro p trips
  have start : (ClientPeer.onBench settings).rttSamples =
      ([] : List Nat).rtake (ClientPeer.onBench settings).rttWindow := by
    rw [List.rtake_nil]
    rfl
  have samples : p.rttSamples = trips.rtake (max settings.maxRttSamples 1) := by
    rw [(Action.records_run script actions _).samples [] start, List.nil_append]
    rfl
  have empty : p.rttSamples = [] ↔ trips = [] := by
    rw [samples]
    exact rtake_eq_nil_iff trips _ (by omega)
  have average : trips ≠ [] → p.averageRtt? =
      if durationMax < p.rttSamples.sum ∨ p.rttSamples.length % Nat.pow 2 32 = 0 then none
      else some (some (p.rttSamples.sum / (p.rttSamples.length % Nat.pow 2 32))) := by
    intro some_trip
    rw [ClientPeer.averageRtt?_eq, if_neg (mt empty.1 some_trip)]
  refine ⟨samples, fun q _ r => Pending.rtt?_eq_some_iff q r, ⟨?_, ?_⟩, average, ?_⟩
  · intro none_
    by_contra some_trip
    rw [average some_trip] at none_
    split at none_ <;> simp at none_
  · intro no_trip
    rw [ClientPeer.averageRtt?_eq, if_pos (empty.2 no_trip)]
  · intro small within some_trip
    -- the count is below `2 ^ 32`, so taking it modulo `2 ^ 32` changes nothing
    have short : p.rttSamples.length < Nat.pow 2 32 := by
      rw [samples, length_rtake]
      omega
    have counted : 0 < p.rttSamples.length := List.length_pos_iff.2 (mt empty.1 some_trip)
    rw [average some_trip, Nat.mod_eq_of_lt short, if_neg (by omega)]

/-! ## A run of `2 ^ 32` round trips -/

/-- Settings under which sends are not spaced and no pings go out, and a peer keeps `2 ^ 32`
round-trip times. -/
def longRun : ClientSettings := { sendRate := 4294967295, pingIntervalMs := 0, maxRttSamples := Nat.pow 2 32 }

theorem updateInterval_longRun : longRun.updateInterval = 0 := by decide

theorem pingInterval_longRun : longRun.pingInterval = none := by decide

/-- A peer on the bench under `longRun` at the instant zero, with nothing queued and nothing
waiting. -/
def idle (journal : List Seen) (next : Nat) (samples : List Nat) : ClientPeer Recorder Ticket :=
  { transport := { journal }, settings := longRun, nextRequestId := next, rttSamples := samples,
    nextSendAt := 0, nextPingAt := none }

@[simp] theorem rttSamples_idle (journal : List Seen) (next : Nat) (samples : List Nat) :
    (idle journal next samples).rttSamples = samples := rfl

def echoRequest (k : Nat) : Pending Ticket :=
  { request := { operationCode := 1, requestId := k }, timeout := longRun.defaultTimeout,
    callback := some ⟨{ operationCode := 1, requestId := k }, longRun.defaultTimeout⟩ }

def echoReply (k : Nat) : Response := { operationCode := 1, requestId := k, returnCode := .ok }

/-- One echo round at the instant zero: a request is queued, a service call sends it, its reply
comes at once and a service call concludes it. -/
def echo (k : Nat) : List Action :=
  [.send { request := { operationCode := 1 } }, .service 0, .respond (echoReply k) 0, .service 0]

def echoes (n : Nat) : List Action := (List.range n).flatMap fun k => echo (k % 65536)

theorem send_idle (J : List Seen) (next : Nat) (samples : List Nat) :
    ∃ J', (Action.send { request := { operationCode := 1 } }).perform (fun _ _ => []) (idle J next samples) =
      { idle J' ((next + 1) % 65536) samples with delayed := [echoRequest next] } := ⟨_, rfl⟩

theorem service_queued (J : List Seen) (next k : Nat) (samples : List Nat) :
    ∃ J', (Action.service 0).perform (fun _ _ => []) { idle J next samples with delayed := [echoRequest k] } =
      { idle J' next samples with waiting := [{ echoRequest k with sentAt := some 0 }] } := by
  simp only [Action.perform, ClientPeer.service_fst, ClientPeer.settled, ClientPeer.flush, idle,
    Recorder.drain_eq, List.foldl_nil, ClientPeer.expire, List.map_nil, ClientPeer.dropSettled,
    List.zipIdx_nil, List.filter_nil, ClientPeer.connected, Transport.connected, Bool.not_true,
    Bool.false_eq_true, if_false, Nat.add_zero, ClientPeer.pingIfDue, pingInterval_longRun,
    ClientPeer.sendIfDue, updateInterval_longRun, Nat.le_refl, if_true, ClientPeer.transmit,
    Pending.markSent, echoRequest, Recorder.send_eq, Recorder.failure, Recorder.note, Option.isSome_none]
  exact ⟨_, rfl⟩

theorem respond_sent (J : List Seen) (next k : Nat) (samples : List Nat) :
    ∃ J', (Action.respond (echoReply k) 0).perform (fun _ _ => [])
        { idle J next samples with waiting := [{ echoRequest k with sentAt := some 0 }] } =
      { idle J' next samples with
        waiting := [{ echoRequest k with sentAt := some 0, resolution := some ⟨echoReply k, 0, false⟩ }] } := by
  simp only [Action.perform, idle, ClientPeer.note, Recorder.note, ClientPeer.onResponse, echoRequest,
    echoReply, List.findIdx?_cons, beq_self_eq_true, Pending.hasResponse, Option.isSome_none,
    Bool.not_false, Bool.and_self, if_true, List.getElem?_cons_zero, Pending.resolve, Bool.false_eq_true,
    if_false, List.set_cons_zero]
  exact ⟨_, rfl⟩

theorem service_answered (J : List Seen) (next k : Nat) (samples : List Nat) :
    ∃ J', (Action.service 0).perform (fun _ _ => [])
        { idle J next samples with
          waiting := [{ echoRequest k with sentAt := some 0, resolution := some ⟨echoReply k, 0, false⟩ }] } =
      idle J' next ((samples ++ [0]).rtake (Nat.pow 2 32)) := by
  simp only [Action.perform, ClientPeer.service_fst, ClientPeer.settled, ClientPeer.flush, idle,
    Recorder.drain_eq, List.foldl_nil, ClientPeer.expire, List.map_nil, List.map_cons, Pending.expire,
    Pending.isTimedOut, Pending.hasResponse, Option.isSome_some, Bool.not_true, Bool.false_and,
    Bool.false_eq_true, if_false, List.foldl_cons, ClientPeer.conclude, if_true, ClientPeer.recordRtt,
    Pending.rtt?, ClientPeer.addRttSample, Pending.invoke, Pending.response?, Option.map_some,
    ClientPeer.answer, ClientPeer.note, Recorder.note, ClientPeer.dropSettled, List.zipIdx_cons,
    List.zipIdx_nil, List.filter_cons, List.filter_nil, List.getElem?_cons_zero, ClientPeer.connected,
    Transport.connected, Nat.add_zero, ClientPeer.pingIfDue, pingInterval_longRun, ClientPeer.sendIfDue,
    Nat.le_refl, echoRequest, Nat.sub_self]
  exact ⟨_, rfl⟩

theorem run_echo (J : List Seen) (next : Nat) (samples : List Nat) :
    ∃ J', Action.run (fun _ _ => []) (echo next) (idle J next samples) =
      idle J' ((next + 1) % 65536) ((samples ++ [0]).rtake (Nat.pow 2 32)) := by
  obtain ⟨J₁, sent⟩ := send_idle J next samples
  obtain ⟨J₂, out⟩ := service_queued J₁ ((next + 1) % 65536) next samples
  obtain ⟨J₃, replied⟩ := respond_sent J₂ ((next + 1) % 65536) next samples
  obtain ⟨J₄, concluded⟩ := service_answered J₃ ((next + 1) % 65536) next samples
  exact ⟨J₄, by simp only [Action.run, echo, List.foldl_cons, List.foldl_nil, sent, out, replied, concluded]⟩

theorem run_echoes (n : Nat) :
    ∃ J, Action.run (fun _ _ => []) (echoes n) (ClientPeer.onBench longRun) =
      idle J (n % 65536) ((List.replicate n 0).rtake (Nat.pow 2 32)) := by
  induction n with
  | zero => exact ⟨[], rfl⟩
  | succ n ih =>
    obtain ⟨J, ran⟩ := ih
    obtain ⟨J', round⟩ := run_echo J (n % 65536) ((List.replicate n 0).rtake (Nat.pow 2 32))
    have rounds : echoes (n + 1) = echoes n ++ echo (n % 65536) := by
      simp only [echoes, List.range_succ, List.flatMap_append, List.flatMap_singleton]
    have next : (n % 65536 + 1) % 65536 = (n + 1) % 65536 := by omega
    refine ⟨J', ?_⟩
    rw [rounds, Action.run_append, ran, round, next, rtake_concat_rtake, List.replicate_succ']

/-- After `2 ^ 32` round trips of no time each on a peer that keeps `2 ^ 32` times, the peer keeps
`2 ^ 32` times of zero, and their average panics instead of being zero: the count, taken as a
32-bit number, is zero. -/
theorem average_of_two_pow_thirty_two_round_trips_panics :
    (Action.run (fun _ _ => []) (echoes (Nat.pow 2 32)) (ClientPeer.onBench longRun)).rttSamples =
        List.replicate (Nat.pow 2 32) 0 ∧
      (Action.run (fun _ _ => []) (echoes (Nat.pow 2 32)) (ClientPeer.onBench longRun)).averageRtt? = none := by
  obtain ⟨J, ran⟩ := run_echoes (Nat.pow 2 32)
  have samples : (Action.run (fun _ _ => []) (echoes (Nat.pow 2 32)) (ClientPeer.onBench longRun)).rttSamples =
      List.replicate (Nat.pow 2 32) 0 := by
    -- the run is not evaluated: its times are read off `run_echoes`
    rw [ran, rttSamples_idle]
    exact rtake_of_length_le _ _ (Nat.le_of_eq (List.length_replicate ..))
  refine ⟨samples, ?_⟩
  have wrapped : (List.replicate (Nat.pow 2 32) 0).length % Nat.pow 2 32 = 0 := by
    rw [List.length_replicate, Nat.mod_self]
  have present : List.replicate (Nat.pow 2 32) 0 ≠ [] :=
    fun empty => absurd ((List.replicate_eq_nil_iff 0).1 empty) (by decide)
  rw [ClientPeer.averageRtt?_eq, samples, if_neg present, if_pos (Or.inr wrapped)]

end Switchboard.Peer
