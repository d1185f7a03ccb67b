import Mathlib.Data.List.Forall2
import Switchboard.Proofs.Http.WholeRequest
import Switchboard.Server.HttpConnection
/-!
# Requests sent back to back on one connection

Each feed is a read of the request being received (`HttpServer.feed_eq`). For a controller that
records what it is given, `Serving` holds between reads and one read keeps it (`Serving.onData`),
so reads in any pieces dispatch every request once, in order (`recorder_dispatches_pipelined`).
-/
namespace Switchboard.WebSocket

open Switchboard.Http

variable [Crypto]

/-- A header that bears on a WebSocket upgrade: `Upgrade`, `Sec-WebSocket-Key`,
`Sec-WebSocket-Version`, or a `Connection` that asks for one. -/
def upgradeHeader (x : String × String) : Bool :=
  (Ascii.eqFold x.1 "Connection" && isUpgradeConnection x.2) || Ascii.eqFold x.1 "Upgrade" ||
    Ascii.eqFold x.1 "Sec-WebSocket-Key" || Ascii.eqFold x.1 "Sec-WebSocket-Version"

theorem judge_plain (s : UpgradeHeaders) {x : String × String} (plain : upgradeHeader x = false) :
    (s.judge x).connection = s.connection ∧ (s.judge x).upgrade = s.upgrade ∧
      (s.judge x).version = s.version ∧ (s.judge x).accept = s.accept := by
  obtain ⟨name, value⟩ := x
  simp only [upgradeHeader, Bool.or_eq_false_iff, Bool.and_eq_false_iff] at plain
  obtain ⟨⟨⟨connection, upgrade⟩, key⟩, version⟩ := plain
  unfold UpgradeHeaders.judge
  -- a `Connection` header that asks for no upgrade only marks an error
  by_cases named : Ascii.eqFold name "Connection" = true
  · have value : isUpgradeConnection value = false := by simpa [named] using connection
    simp [named, value]
  · simp [named, upgrade, key, version]

theorem foldl_judge_plain {entries : List (String × String)} (plain : ∀ x ∈ entries, upgradeHeader x = false)
    (s : UpgradeHeaders) :
    (entries.foldl UpgradeHeaders.judge s).connection = s.connection ∧
      (entries.foldl UpgradeHeaders.judge s).upgrade = s.upgrade ∧
      (entries.foldl UpgradeHeaders.judge s).version = s.version ∧
      (entries.foldl UpgradeHeaders.judge s).accept = s.accept := by
  induction entries generalizing s with
  | nil => exact ⟨rfl, rfl, rfl, rfl⟩
  | cons x entries ih =>
    obtain ⟨c, u, v, a⟩ := judge_plain s (plain x (List.mem_cons_self ..))
    obtain ⟨c', u', v', a'⟩ := ih (fun y mem => plain y (List.mem_cons_of_mem x mem)) (s.judge x)
    exact ⟨c'.trans c, u'.trans u, v'.trans v, a'.trans a⟩

theorem serverUpgrade_plain {σ : Type} (e : Engine) {request : Request} (response : Response) (handler : σ)
    (approve : σ → Request → Response → Bool × Response × σ)
    (plain : ∀ x ∈ request.headers.entries, upgradeHeader x = false) :
    e.serverUpgrade request response handler approve = (.notRequested, e, response, handler) := by
  obtain ⟨c, u, v, a⟩ := foldl_judge_plain plain {}
  unfold Engine.serverUpgrade
  split
  · rfl
  · simp [c, u, v, a]

end Switchboard.WebSocket

namespace Switchboard.Server

open Switchboard.Http
open Switchboard.WebSocket

namespace HttpServer

variable {σ : Type} (h : HttpServer σ) [Crypto]

/-- What dispatching a complete request asks of the connection; `surplus` are the bytes that came
after the request. -/
def dispatch (c : HttpConnection σ) (request : Request) (surplus : List UInt8) : Feed × HttpConnection σ :=
  match h.handleRequest { c with request := {} } request with
  | (false, c) => (.close, c)
  | (true, c) => if surplus.isEmpty then (.wait, c) else (.next surplus, c)

/-- What feeding asks once the request being read has taken the bytes; `done` tells whether they
completed it. -/
def resolve (c : HttpConnection σ) (done : Bool) (request : Request) : Feed × HttpConnection σ :=
  if request.state == .errorSet then
    (.close, { c with request, link := Web.Controller.requestError c.link "Invalid HTTP request" })
  else if !done then
    if h.maxMessageSize < request.cache.length then
      (.close, { c with request, link := Web.Controller.requestError c.link "Request too large" })
    else (.wait, { c with request })
  else h.dispatch c request request.surplus

/-- Feeding a request still being received reads the bytes into it and resolves what they did. -/
theorem feed_eq (c : HttpConnection σ) (unsettled : Request.receiver.settled c.request = false)
    (data : List UInt8) :
    h.feed c data = h.resolve c (Request.receiver.receive c.request data).1
      (Request.receiver.receive c.request data).2 := by
  have open_ : c.request.state ≠ .complete ∧ c.request.state ≠ .errorSet := by
    simpa [Request.receiver] using unsettled
  by_cases pending : c.request.isPendingHeader = true
  · rw [Receiver.receive_of_pending _ pending]
    obtain ⟨done, state⟩ := Request.receiveHeader_parts c.request data
    simp only [Request.receiver]
    rcases Message.state_receiveHeader_of_pending pending data "Cookie" Except.ok with
      ⟨read, body⟩ | ⟨none, unread, -⟩
    · -- the header block reads, and the body read that follows settles the request
      have yes : (c.request.receiveHeader data).1 = true := by rw [done, read]
      have later : (c.request.receiveHeader data).2.state = .pendingBody := state.trans body
      have fine : ((c.request.receiveHeader data).2.receiveBody []).2.state ≠ .errorSet := by
        rw [Request.state_receiveBody, later]
        split <;> decide
      -- the handler's answer decides both the dispatch's match and the feed's
      rcases answer : h.handleRequest { c with request := {} } ((c.request.receiveHeader data).2.receiveBody []).2
        with ⟨_ | _, c'⟩ <;> simp [feed, resolve, dispatch, pending, yes, later, fine, answer]
    · have no : (c.request.receiveHeader data).1 = false := by rw [done, none]; rfl
      have notBody : (c.request.receiveHeader data).2.state ≠ .pendingBody := by
        rw [state]
        exact unread
      simp [feed, resolve, pending, no, notBody]
  · have body : c.request.state = .pendingBody := by
      cases state : c.request.state <;> simp_all [Message.isPendingHeader]
    have waiting : Request.receiver.pending c.request = false := by
      show c.request.isPendingHeader = false
      simpa using pending
    have fine : (c.request.receiveBody data).2.state ≠ .errorSet := by
      rw [Request.state_receiveBody, body]
      split <;> decide
    rw [Receiver.receive_of_not_pending _ waiting]
    simp [feed, resolve, dispatch, Request.receiver, pending, body, fine]
    rfl

theorem drive_wait (fed : List UInt8) (c : HttpConnection σ) :
    h.drive fed (.wait, c) = (c.link.session.connected, c) := by
  rw [drive]

theorem drive_close (fed : List UInt8) (c : HttpConnection σ) : h.drive fed (.close, c) = (false, c) := by
  rw [drive]

theorem drive_next {fed s : List UInt8} {c : HttpConnection σ} (connected : c.link.session.connected = true)
    (plain : c.upgraded = none) (shorter : s.length < fed.length) :
    h.drive fed (.next s, c) = h.onData c s := by
  rw [drive]
  simp [connected, plain, shorter, onData]

theorem drive_next_upgraded {fed s : List UInt8} {c : HttpConnection σ} (connected : c.link.session.connected = true)
    (upgraded : c.upgraded.isSome = true) :
    h.drive fed (.next s, c) = h.onData c s := by
  rw [drive]
  simp [connected, upgraded, onData]

theorem resolve_next {c c' : HttpConnection σ} {done : Bool} {r : Request} {s : List UInt8}
    (next : h.resolve c done r = (.next s, c')) : s = r.surplus ∧ s ≠ [] := by
  unfold resolve dispatch at next
  split at next
  · cases next
  split at next
  · split at next <;> cases next
  rcases answer : h.handleRequest { c with request := {} } r with ⟨_ | _, c''⟩ <;>
    rw [answer] at next
  · cases next
  · dsimp only at next
    split at next
    · cases next
    · next left =>
      cases next
      exact ⟨rfl, fun empty => left (by rw [empty]; rfl)⟩

theorem feed_next_shorter {c : HttpConnection σ} {ps : List (List UInt8)}
    (pieces : c.request = Request.receiver.receiveChunks {} ps) {d s : List UInt8} {c' : HttpConnection σ}
    (fed : h.feed c d = (.next s, c')) : s.length < d.length := by
  cases settled : Request.receiver.settled c.request with
  | true =>
    -- a settled request takes no bytes: feeding it waits or closes
    have stopped : c.request.state = .complete ∨ c.request.state = .errorSet := by
      simpa [Request.receiver] using settled
    rcases stopped with state | state
    · simp [feed, Message.isPendingHeader, state] at fed
      split at fed <;> cases fed
    · simp [feed, Message.isPendingHeader, state] at fed
  | false =>
    rw [h.feed_eq c settled d] at fed
    obtain ⟨surplus, left⟩ := h.resolve_next fed
    have last : (Request.receiver.receive c.request d).2 = Request.receiver.receiveChunks {} (ps ++ [d]) := by
      rw [Receiver.receiveChunks_append, ← pieces, Receiver.receiveChunks_cons _ settled]
      rfl
    rw [last] at surplus
    rw [surplus] at left ⊢
    exact Request.length_surplus_lt (pieces ▸ settled) d left

theorem onData_plain {c : HttpConnection σ} (plain : c.upgraded = none) (data : List UInt8) :
    h.onData c data = h.drive data (h.feed c data) := by
  simp [onData, plain]

theorem onData_next {c c' : HttpConnection σ} {ps : List (List UInt8)} (plain : c.upgraded = none)
    (pieces : c.request = Request.receiver.receiveChunks {} ps) {d s : List UInt8}
    (fed : h.feed c d = (.next s, c')) (connected : c'.link.session.connected = true) :
    h.onData c d = h.onData c' s := by
  rw [onData_plain h plain, fed]
  cases up : c'.upgraded with
  | none => exact h.drive_next connected up (h.feed_next_shorter pieces fed)
  | some e => exact h.drive_next_upgraded connected (by simp [up])

theorem onData_wait {c c' : HttpConnection σ} (plain : c.upgraded = none) {data : List UInt8}
    (fed : h.feed c data = (.wait, c')) (connected : c'.link.session.connected = true) :
    h.onData c data = (true, c') := by
  rw [onData_plain h plain, fed, drive_wait, connected]

theorem receiveReads_cons (c : HttpConnection σ) (d : List UInt8) (cs : List (List UInt8)) :
    h.receiveReads c (d :: cs) =
      if (h.onData c d).1 then
        (true :: (h.receiveReads (h.onData c d).2 cs).1, (h.receiveReads (h.onData c d).2 cs).2)
      else ([false], (h.onData c d).2) := by
  rw [receiveReads]
  split <;> next keep c' read => simp [read]

theorem feed_nothing {c : HttpConnection σ} {ps : List (List UInt8)}
    (pieces : c.request = Request.receiver.receiveChunks {} ps)
    (sound : c.request.cache.length ≤ c.request.cache.capacity) (raw : c.request.raw = [])
    (empty : ps.flatten = []) :
    h.feed c [] = (.wait, { c with request := Request.receiver.receiveChunks {} (ps ++ [[]]) }) ∧
      (Request.receiver.receiveChunks {} (ps ++ [[]])).cache.length ≤
        (Request.receiver.receiveChunks {} (ps ++ [[]])).cache.capacity ∧
      (Request.receiver.receiveChunks {} (ps ++ [[]])).raw = [] := by
  obtain ⟨read, pending⟩ := Request.receive_waiting pieces
    (show findTerminator (ps.flatten ++ []) 0 = Option.none by rw [empty]; rfl)
  have before := Request.isPendingHeader_receiveChunks (show findTerminator ps.flatten 0 = Option.none by
    rw [empty]; rfl)
  rw [← pieces] at before
  obtain ⟨sound', raw'⟩ := Request.raw_receive sound []
  rw [read] at sound' raw'
  rw [raw, List.append_nil] at raw'
  have fine : (Request.receiver.receiveChunks {} (ps ++ [[]])).state ≠ .errorSet := by
    intro failed
    simp [Message.isPendingHeader, failed] at pending
  have small : (Request.receiver.receiveChunks {} (ps ++ [[]])).cache.length = 0 := by
    rw [← ByteBuffer.length_bytes _ sound']
    show (Request.receiver.receiveChunks {} (ps ++ [[]])).raw.length = 0
    rw [raw']
    rfl
  rw [h.feed_eq c (Request.settled_of_isPendingHeader before) [], read]
  exact ⟨by simp [resolve, fine, small], sound', raw'⟩


/-- A read that leaves a whole request short keeps the connection waiting for the rest. -/
theorem feed_short {c : HttpConnection σ} {b tail d : List UInt8} {ps : List (List UInt8)}
    (p : Request.Receiving b ps c.request) (whole : Request.Whole b) (fits : b.length ≤ h.maxMessageSize)
    (within : ps.flatten ++ d <+: b ++ tail) (short : (ps.flatten ++ d).length < b.length) :
    h.feed c d = (.wait, { c with request := (Request.receiver.receive c.request d).2 }) ∧
      Request.Receiving b (ps ++ [d]) (Request.receiver.receive c.request d).2 := by
  obtain ⟨done, fine, next⟩ := p.receive_short whole within short
  have small : ¬ h.maxMessageSize < (Request.receiver.receive c.request d).2.cache.length := by
    rw [← ByteBuffer.length_bytes _ next.sound]
    show ¬ h.maxMessageSize < (Request.receiver.receive c.request d).2.raw.length
    rw [next.raw]
    have := next.short
    omega
  rw [h.feed_eq c (p.unsettled whole (List.prefix_append _ _ |>.trans within)) d]
  simp [resolve, done, fine, small]
  exact next

/-- The read that reaches the end of a whole request dispatches it, as it reads alone, with the
bytes past its end. -/
theorem feed_long {c : HttpConnection σ} {b tail d : List UInt8} {ps : List (List UInt8)}
    (p : Request.Receiving b ps c.request) (whole : Request.Whole b)
    (within : ps.flatten ++ d <+: b ++ tail) (long : b.length ≤ (ps.flatten ++ d).length) :
    ∃ r, Request.Same r (Request.ofBytes b) ∧ h.feed c d = h.dispatch c r ((ps.flatten ++ d).drop b.length) := by
  have unsettled := p.unsettled whole (List.prefix_append _ _ |>.trans within)
  obtain ⟨done, same, surplus⟩ := p.receive_long whole within long
  have complete := (Request.receive_done unsettled d).1 done
  have fine : (Request.receiver.receive c.request d).2.state ≠ .errorSet := by
    rw [complete]
    decide
  refine ⟨_, same, ?_⟩
  rw [h.feed_eq c unsettled d]
  simp [resolve, done, fine, surplus]

end HttpServer

/-- A server whose controller records each complete request and does nothing else, and whose
WebSocket service, when it has one, records each message. -/
def recorder (max : Nat) (ws : Bool) : HttpServer (List Request × List (List UInt8)) where
  maxMessageSize := max
  received s l r := ((s.1 ++ [r], s.2), l)
  websocket := if ws then some fun s l d => ((s.1, s.2 ++ [d]), l) else none

theorem recorder_handleRequest [Crypto] {max : Nat} {ws : Bool} (c : HttpConnection (List Request × List (List UInt8)))
    {r : Request} (plain : ∀ x ∈ r.headers.entries, upgradeHeader x = false) :
    (recorder max ws).handleRequest c r = (true, { c with services := (c.services.1 ++ [r], c.services.2) }) := by
  have none : (recorder max ws).upgrade c r = none := by
    unfold HttpServer.upgrade
    cases ws <;> simp [recorder, serverUpgrade_plain _ _ _ _ plain]
  rw [HttpServer.handleRequest, none]
  rfl

/-- A request that a connection dispatches as it reads alone: exactly one whole request, no longer
than the message size limit, with no header that bears on an upgrade. -/
structure PlainRequest (max : Nat) (b : List UInt8) : Prop where
  whole : Request.Whole b
  fits : b.length ≤ max
  plain : ∀ x ∈ (Request.ofBytes b).headers.entries, upgradeHeader x = false

/-- Between reads, a connection of the recorder on the link `l` that has dispatched the requests
`done`, in order, and has received the pieces `ps` of the first request of `todo`, or pieces with
no byte when none is left. -/
structure Serving (l : Link) (done todo ps : List (List UInt8))
    (c : HttpConnection (List Request × List (List UInt8))) : Prop where
  dispatched : List.Forall₂ Request.Same c.services.1 (done.map Request.ofBytes)
  messages : c.services.2 = []
  link : c.link = l
  plain : c.upgraded = none
  pieces : c.request = Request.receiver.receiveChunks {} ps
  sound : c.request.cache.length ≤ c.request.cache.capacity
  raw : c.request.raw = ps.flatten
  short : ∀ b ∈ todo.head?, ps.flatten.length < b.length
  idle : todo = [] → ps.flatten = []

section Serving

variable {max : Nat} {l : Link} {done todo ps : List (List UInt8)}
  {c : HttpConnection (List Request × List (List UInt8))}

theorem serving_init (l : Link) {bs : List (List UInt8)} (plain : ∀ b ∈ bs, PlainRequest max b) :
    Serving l [] bs [] { services := ([], []), link := l } := by
  refine ⟨List.Forall₂.nil, rfl, rfl, rfl, rfl, Nat.le_refl 0, rfl, ?_, fun _ => rfl⟩
  intro b first
  cases bs with
  | nil => cases first
  | cons b' bs =>
    have same : b' = b := Option.some.inj first
    subst same
    exact (plain b' (List.mem_cons_self ..)).whole.length_pos

theorem Serving.receiving {b : List UInt8} (inv : Serving l done (b :: todo) ps c) :
    Request.Receiving b ps c.request :=
  ⟨inv.pieces, inv.sound, inv.raw, inv.short b rfl⟩

theorem Serving.length_le (inv : Serving l done todo ps c) : ps.flatten.length ≤ todo.flatten.length := by
  cases todo with
  | nil => simp [inv.idle rfl]
  | cons b todo =>
    have := inv.short b rfl
    simp only [List.flatten_cons, List.length_append]
    omega

theorem Serving.expect (inv : Serving l done [] ps c) (empty : ps.flatten = []) {b : List UInt8}
    (nonempty : 0 < b.length) : Serving l done [b] ps c :=
  ⟨inv.dispatched, inv.messages, inv.link, inv.plain, inv.pieces, inv.sound, inv.raw,
    fun b' head => by cases head; simpa [empty] using nonempty, fun left => by cases left⟩

theorem Serving.take {b d : List UInt8} (inv : Serving l done (b :: todo) ps c) {r : Request}
    (next : Request.Receiving b (ps ++ [d]) r) : Serving l done (b :: todo) (ps ++ [d]) { c with request := r } :=
  ⟨inv.dispatched, inv.messages, inv.link, inv.plain, next.pieces, next.sound, next.raw,
    fun b' head => by cases head; exact next.short, fun left => by cases left⟩

theorem Serving.next {b : List UInt8} (inv : Serving l done (b :: todo) ps c) {r : Request}
    (same : Request.Same r (Request.ofBytes b)) (plain : ∀ b ∈ todo, PlainRequest max b) :
    Serving l (done ++ [b]) todo []
      { c with request := {}, services := (c.services.1 ++ [r], c.services.2) } := by
  refine ⟨?_, inv.messages, inv.link, inv.plain, rfl, Nat.le_refl 0, rfl, ?_, fun _ => rfl⟩
  · rw [List.map_append]
    exact List.rel_append inv.dispatched (List.Forall₂.cons same List.Forall₂.nil)
  · intro b' first
    cases todo with
    | nil => cases first
    | cons b'' todo =>
      have same : b'' = b' := Option.some.inj first
      subst same
      exact (plain b'' (List.mem_cons_self ..)).whole.length_pos

variable [Crypto]

/-- A read on a serving connection, of bytes within its requests and whatever follows them. Either
the connection stays open and serving, having dispatched the requests the read completed; or the
read completes all of them, and its bytes past them are handled as a read of their own by the
connection that has dispatched them all. -/
theorem Serving.onData (ws : Bool) (connected : l.session.connected = true) {after : List UInt8} :
    ∀ {todo done ps : List (List UInt8)} {c : HttpConnection (List Request × List (List UInt8))}
      {data : List UInt8},
      Serving l done todo ps c → (∀ b ∈ todo, PlainRequest max b) →
      ps.flatten ++ data <+: todo.flatten ++ after →
      ∃ c' done' todo' ps', Serving l (done ++ done') todo' ps' c' ∧ done' ++ todo' = todo ∧
        (((recorder max ws).onData c data = (true, c') ∧ done'.flatten ++ ps'.flatten = ps.flatten ++ data) ∨
          (todo' = [] ∧ ps'.flatten = [] ∧ ∃ s, s ≠ [] ∧ ps.flatten ++ data = todo.flatten ++ s ∧
            (recorder max ws).onData c data = (recorder max ws).onData c' s)) := by
  intro todo
  induction todo with
  | nil =>
    intro done ps c data inv _ within
    have empty := inv.idle rfl
    by_cases nothing : data = []
    · -- an empty read with no request under way only adds an empty piece
      subst nothing
      obtain ⟨fed, sound, raw⟩ := (recorder max ws).feed_nothing inv.pieces inv.sound (inv.raw.trans empty) empty
      refine ⟨{ c with request := Request.receiver.receiveChunks {} (ps ++ [[]]) }, [], [], ps ++ [[]], ?_, rfl,
        Or.inl ⟨?_, by simp [empty]⟩⟩
      · rw [List.append_nil]
        exact ⟨inv.dispatched, inv.messages, inv.link, inv.plain, rfl, sound, by simp [raw, empty],
          fun _ head => (by cases head), fun _ => by simp [empty]⟩
      · exact (recorder max ws).onData_wait inv.plain fed (inv.link ▸ connected)
    · exact ⟨c, [], [], ps, by simpa using inv, rfl, Or.inr ⟨rfl, empty, data, nothing, by simp [empty], rfl⟩⟩
  | cons b todo ih =>
    intro done ps c data inv plain within
    have rcv := inv.receiving
    have first := plain b (List.mem_cons_self ..)
    have rest : ∀ b ∈ todo, PlainRequest max b := fun b' mem => plain b' (List.mem_cons_of_mem b mem)
    have within' : ps.flatten ++ data <+: b ++ (todo.flatten ++ after) := by
      simpa only [List.flatten_cons, List.append_assoc] using within
    by_cases short : (ps.flatten ++ data).length < b.length
    · -- the read leaves the request short: the connection waits for the rest
      obtain ⟨fed, next⟩ := (recorder max ws).feed_short rcv first.whole first.fits within' short
      refine ⟨{ c with request := (Request.receiver.receive c.request data).2 }, [], b :: todo, ps ++ [data],
        by simpa using inv.take next, by simp, Or.inl ⟨?_, by simp⟩⟩
      exact (recorder max ws).onData_wait inv.plain fed (inv.link ▸ connected)
    · -- the read completes the request: it is dispatched, and the bytes after it go on
      obtain ⟨r, same, fed⟩ := (recorder max ws).feed_long rcv first.whole within' (by omega)
      have serving := inv.next same rest
      obtain ⟨s, split⟩ : b <+: ps.flatten ++ data :=
        List.prefix_of_prefix_length_le (List.prefix_append b _) within' (by omega)
      have surplus : (ps.flatten ++ data).drop b.length = s := by
        rw [← split, List.drop_left]
      have later : s <+: todo.flatten ++ after := by
        rw [← split] at within'
        exact (List.prefix_append_right_inj b).1 within'
      rw [surplus, HttpServer.dispatch, recorder_handleRequest _ (by rw [same.headers]; exact first.plain)] at fed
      by_cases none : s = []
      · subst none
        refine ⟨_, [b], todo, [], serving, rfl, Or.inl ⟨?_, by simpa using split⟩⟩
        exact (recorder max ws).onData_wait inv.plain (by simpa using fed) (inv.link ▸ connected)
      · have shorter : s.length < data.length := by
          have := rcv.short
          have lengths := congrArg List.length split
          simp only [List.length_append] at lengths
          omega
        have onward : (recorder max ws).onData c data =
            (recorder max ws).onData { c with request := {}, services := (c.services.1 ++ [r], c.services.2) } s := by
          rw [HttpServer.onData_plain _ inv.plain, fed]
          simp only [List.isEmpty_iff, none, if_false]
          exact (recorder max ws).drive_next (by simp [inv.link, connected]) inv.plain shorter
        obtain ⟨c', done', todo', ps', serving', split', outcome⟩ := ih serving rest (by simpa using later)
        refine ⟨c', b :: done', todo', ps', by simpa using serving', by simp [split'], ?_⟩
        rcases outcome with ⟨run, fed'⟩ | ⟨none', empty, s', nonempty, fed', run⟩
        · left
          refine ⟨onward.trans run, ?_⟩
          rw [← split]
          simpa using fed'
        · right
          refine ⟨none', empty, s', nonempty, ?_, onward.trans run⟩
          rw [← split]
          simpa using fed'

theorem Serving.receiveReads (ws : Bool) (connected : l.session.connected = true) {after : List UInt8} :
    ∀ {cs : List (List UInt8)} {done todo ps : List (List UInt8)}
      {c : HttpConnection (List Request × List (List UInt8))},
      Serving l done todo ps c → (∀ b ∈ todo, PlainRequest max b) →
      ps.flatten ++ cs.flatten <+: todo.flatten ++ after →
      (∃ c' done' todo' ps', (recorder max ws).receiveReads c cs = (cs.map fun _ => true, c') ∧
          Serving l (done ++ done') todo' ps' c' ∧ done' ++ todo' = todo ∧
          done'.flatten ++ ps'.flatten = ps.flatten ++ cs.flatten) ∨
        (∃ c' ps' k s rest, Serving l (done ++ todo) [] ps' c' ∧ ps'.flatten = [] ∧ s ≠ [] ∧
          ps.flatten ++ cs.flatten = todo.flatten ++ (s ++ rest.flatten) ∧ cs.length = k + rest.length + 1 ∧
          (recorder max ws).receiveReads c cs =
            (List.replicate k true ++ ((recorder max ws).receiveReads c' (s :: rest)).1,
              ((recorder max ws).receiveReads c' (s :: rest)).2)) := by
  intro cs
  induction cs with
  | nil =>
    intro done todo ps c inv _ _
    exact Or.inl ⟨c, [], todo, ps, rfl, by simpa using inv, rfl, by simp⟩
  | cons d cs ih =>
    intro done todo ps c inv plain within
    have first : ps.flatten ++ d <+: todo.flatten ++ after :=
      (List.prefix_append (ps.flatten ++ d) cs.flatten).trans (by simpa [List.append_assoc] using within)
    obtain ⟨c₁, done₁, todo₁, ps₁, serving, split, outcome⟩ := inv.onData ws connected plain first
    rcases outcome with ⟨read, fed⟩ | ⟨none, empty, s, nonempty, fed, read⟩
    · -- the read keeps the connection serving: the later reads go on from there
      have plain₁ : ∀ b ∈ todo₁, PlainRequest max b := fun b mem =>
        plain b (split ▸ List.mem_append_right done₁ mem)
      have within₁ : ps₁.flatten ++ cs.flatten <+: todo₁.flatten ++ after := by
        have whole : done₁.flatten ++ (ps₁.flatten ++ cs.flatten) <+:
            done₁.flatten ++ (todo₁.flatten ++ after) := by
          rw [← List.append_assoc, fed, ← List.append_assoc, ← List.flatten_append, split]
          simpa [List.append_assoc] using within
        exact (List.prefix_append_right_inj _).1 whole
      have step : (recorder max ws).receiveReads c (d :: cs) =
          (true :: ((recorder max ws).receiveReads c₁ cs).1, ((recorder max ws).receiveReads c₁ cs).2) := by
        rw [HttpServer.receiveReads_cons, read]
        rfl
      rcases ih serving plain₁ within₁ with ⟨c', done', todo', ps', run, serving', split', fed'⟩ |
          ⟨c', ps', k, s, rest, serving', empty, nonempty, fed', count, run⟩
      · left
        refine ⟨c', done₁ ++ done', todo', ps', by rw [step, run]; rfl,
          by simpa [List.append_assoc] using serving', by rw [List.append_assoc, split', split], ?_⟩
        calc (done₁ ++ done').flatten ++ ps'.flatten = done₁.flatten ++ (done'.flatten ++ ps'.flatten) := by simp
          _ = (done₁.flatten ++ ps₁.flatten) ++ cs.flatten := by rw [fed']; simp
          _ = ps.flatten ++ (d :: cs).flatten := by rw [fed]; simp
      · right
        refine ⟨c', ps', k + 1, s, rest, by rwa [List.append_assoc, split] at serving', empty, nonempty, ?_,
          by simp [count]; omega, by rw [step, run]; simp [List.replicate_succ]⟩
        calc ps.flatten ++ (d :: cs).flatten = (ps.flatten ++ d) ++ cs.flatten := by simp
          _ = done₁.flatten ++ (ps₁.flatten ++ cs.flatten) := by rw [← fed]; simp
          _ = done₁.flatten ++ (todo₁.flatten ++ (s ++ rest.flatten)) := by rw [fed']
          _ = todo.flatten ++ (s ++ rest.flatten) := by rw [← split]; simp
    · -- the read completes every request: from it on the reads run on the connection past them
      right
      subst none
      rw [List.append_nil] at split
      subst split
      refine ⟨c₁, ps₁, 0, s, cs, serving, empty, nonempty, by simp [← List.append_assoc, fed], by simp, ?_⟩
      rw [HttpServer.receiveReads_cons, HttpServer.receiveReads_cons, read]
      simp

theorem recorder_reads_past_pipelined {ws : Bool} (connected : l.session.connected = true)
    {bs cs : List (List UInt8)} {after : List UInt8} (plain : ∀ b ∈ bs, PlainRequest max b) (nonempty : after ≠ [])
    (stream : cs.flatten = bs.flatten ++ after) :
    ∃ c' ps' k s rest, Serving l bs [] ps' c' ∧ ps'.flatten = [] ∧ (s :: rest).flatten = after ∧
      cs.length = k + rest.length + 1 ∧
      (recorder max ws).receiveReads { services := ([], []), link := l } cs =
        (List.replicate k true ++ ((recorder max ws).receiveReads c' (s :: rest)).1,
          ((recorder max ws).receiveReads c' (s :: rest)).2) := by
  have within : ([] : List (List UInt8)).flatten ++ cs.flatten <+: bs.flatten ++ after := by simp [stream]
  rcases (serving_init l plain).receiveReads ws connected plain within with
    ⟨c', done', todo', ps', -, serving, split, fed⟩ | ⟨c', ps', k, s, rest, serving, empty, -, fed, count, run⟩
  · -- reads that stay within the requests cannot hold the bytes after them
    have short := serving.length_le
    have more := List.length_pos_iff.2 nonempty
    rw [List.flatten_nil, List.nil_append, stream, ← split] at fed
    have lengths := congrArg List.length fed
    simp only [List.flatten_append, List.length_append] at lengths
    omega
  · refine ⟨c', ps', k, s, rest, by simpa using serving, empty, ?_, count, run⟩
    rw [List.flatten_nil, List.nil_append, stream] at fed
    simpa using fed.symm

/-- Requests sent back to back, each whole and asking for no upgrade, read in any pieces: the
recorder's connection answers true after every read and dispatches each request once, in order,
as it reads alone. -/
theorem recorder_dispatches_pipelined {ws : Bool} (connected : l.session.connected = true)
    {bs cs : List (List UInt8)} (plain : ∀ b ∈ bs, PlainRequest max b) (stream : cs.flatten = bs.flatten) :
    ((recorder max ws).receiveReads { services := ([], []), link := l } cs).1 = cs.map (fun _ => true) ∧
      List.Forall₂ Request.Same ((recorder max ws).receiveReads { services := ([], []), link := l } cs).2.services.1
        (bs.map Request.ofBytes) := by
  have within : ([] : List (List UInt8)).flatten ++ cs.flatten <+: bs.flatten ++ [] := by simp [stream]
  rcases (serving_init l plain).receiveReads ws connected plain within with
    ⟨c', done', todo', ps', run, serving, split, fed⟩ | ⟨c', ps', k, s, rest, -, -, nonempty, fed, -, -⟩
  · -- the pieces received are all the bytes of the requests left, so none is left
    have left : todo' = [] := by
      cases todo' with
      | nil => rfl
      | cons b todo' =>
        have short := serving.short b rfl
        rw [List.flatten_nil, List.nil_append, stream, ← split] at fed
        have lengths := congrArg List.length fed
        simp only [List.flatten_append, List.flatten_cons, List.length_append] at lengths
        omega
    subst left
    rw [List.append_nil] at split
    subst split
    rw [run]
    exact ⟨rfl, by simpa using serving.dispatched⟩
  · -- the reads bring no byte past the requests
    rw [List.flatten_nil, List.nil_append, stream] at fed
    have lengths := congrArg List.length fed
    simp only [List.length_append] at lengths
    have : s.length = 0 := by omega
    exact absurd (List.length_eq_zero_iff.1 this) nonempty

end Serving

end Switchboard.Server
