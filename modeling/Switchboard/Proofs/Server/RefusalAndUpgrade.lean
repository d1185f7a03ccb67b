import Mathlib.Data.List.Forall2
import Switchboard.Proofs.Http.ReadingBack
import Switchboard.Proofs.Server.Pipelining
import Switchboard.Proofs.WebSocket.Receiving
import Switchboard.Proofs.WebSocket.HandshakeKeys
/-!
# Refused requests and upgrades after pipelined requests

Past the requests it dispatches, a connection either meets bytes it refuses (`Failing`), which end in
a `400` and a close, or an accepted upgrade, after which it stays `Upgraded`
(`pipelined_requests_are_dispatched_once_in_order`).
-/
namespace Switchboard.WebSocket

def Event.keepsOpen : Event → Bool
  | .message _ | .ping _ | .pong _ => true
  | .close _ _ | .error _ => false

def Event.delivered : Event → List (List UInt8)
  | .message data => [data]
  | .close _ _ | .ping _ | .pong _ | .error _ => []

def Event.answer : Event → List UInt8
  | .ping data => encodeFrame .pong true none data 0
  | .message _ | .close _ _ | .pong _ | .error _ => []

theorem Event.keepsOpen_of_isFatal {ev : Event} (fatal : ev.IsFatal) : ev.keepsOpen = false := by
  cases ev <;> simp_all [Event.IsFatal, keepsOpen]

namespace Engine

theorem receive_prefix {e : Engine} (ready : e.Ready) {a b : List UInt8} (pre : a <+: b) :
    (e.receive a).1 <+: (e.receive b).1 := by
  obtain ⟨t, rfl⟩ := pre
  rcases receive_append ready a t with ⟨same, -⟩ | ⟨split, -⟩
  · simp [same]
  · rw [split]
    exact List.prefix_append _ _

end Engine

end Switchboard.WebSocket

namespace Switchboard.Server

open Switchboard.Http
open Switchboard.WebSocket

/-! ## Refused bytes -/

/-- Between reads, a connection of the recorder on the link `l` that has dispatched the requests
`done` and has received the pieces `ps` of the bytes `bad`, none of which it has refused yet. -/
structure Failing (max : Nat) (l : Link) (done : List (List UInt8)) (bad : List UInt8)
    (ps : List (List UInt8)) (c : HttpConnection (List Request × List (List UInt8))) : Prop where
  dispatched : List.Forall₂ Request.Same c.services.1 (done.map Request.ofBytes)
  link : c.link = l
  plain : c.upgraded = none
  pieces : c.request = Request.receiver.receiveChunks {} ps
  sound : c.request.cache.length ≤ c.request.cache.capacity
  raw : c.request.raw = ps.flatten
  within : ps.flatten <+: bad
  fine : c.request.state ≠ .errorSet
  fits : ps.flatten.length ≤ max

section Failing

variable {max : Nat} {l : Link} {done : List (List UInt8)} {bad : List UInt8}

theorem Serving.failing {ps : List (List UInt8)} {c : HttpConnection (List Request × List (List UInt8))}
    (inv : Serving l done [] ps c) (empty : ps.flatten = []) : Failing max l done bad ps c := by
  have waiting := Request.isPendingHeader_receiveChunks (show findTerminator ps.flatten 0 = Option.none by
    rw [empty]; rfl)
  rw [← inv.pieces] at waiting
  refine ⟨inv.dispatched, inv.link, inv.plain, inv.pieces, inv.sound, inv.raw, by simp [empty], ?_,
    by simp [empty]⟩
  intro failed
  simp [Message.isPendingHeader, failed] at waiting

theorem Failing.short {ps : List (List UInt8)} {c : HttpConnection (List Request × List (List UInt8))}
    (inv : Failing max l done bad ps c) (fails : Request.Fails max bad) : ps.flatten.length < bad.length := by
  have le := inv.within.length_le
  refine Nat.lt_of_le_of_ne le fun same => ?_
  rcases fails.ends (inv.within.eq_of_length same) with failed | large
  · exact inv.fine (inv.pieces ▸ failed)
  · have := inv.fits
    omega

variable [Crypto]

/-- A read of refused bytes either keeps the connection open on them, or answers `400` and closes
it, with nothing dispatched. -/
theorem Failing.onData (ws : Bool) (connected : l.session.connected = true) (fails : Request.Fails max bad)
    {ps : List (List UInt8)} {c : HttpConnection (List Request × List (List UInt8))} {d : List UInt8}
    (inv : Failing max l done bad ps c) (within : ps.flatten ++ d <+: bad) :
    (∃ c', (recorder max ws).onData c d = (true, c') ∧ Failing max l done bad (ps ++ [d]) c') ∨
      ∃ e c', (e = "Invalid HTTP request" ∨ e = "Request too large") ∧
        (recorder max ws).onData c d = (false, c') ∧ c'.services = c.services ∧
        c'.link = Web.Controller.requestError l e := by
  have fed : (ps ++ [d]).flatten = ps.flatten ++ d := by simp
  have within' : (ps ++ [d]).flatten <+: bad := by rw [fed]; exact within
  have unsettled : Request.receiver.settled c.request = false := by
    have incomplete := fails.incomplete (List.prefix_append ps.flatten d |>.trans within)
    rw [← inv.pieces] at incomplete
    simp [Request.receiver, incomplete, inv.fine]
  have eq : (Request.receiver.receive c.request d).2 = Request.receiver.receiveChunks {} (ps ++ [d]) := by
    rw [Receiver.receiveChunks_append, ← inv.pieces, Receiver.receiveChunks_cons _ unsettled]
    rfl
  have done : (Request.receiver.receive c.request d).1 = false := by
    cases read : (Request.receiver.receive c.request d).1
    · rfl
    · have complete := (Request.receive_done unsettled d).1 read
      rw [eq] at complete
      exact absurd complete (fails.incomplete within')
  obtain ⟨sound, raw⟩ := Request.raw_receive inv.sound d
  rw [inv.raw] at raw
  have length : (Request.receiver.receive c.request d).2.cache.length = (ps.flatten ++ d).length := by
    rw [← ByteBuffer.length_bytes _ sound]
    show (Request.receiver.receive c.request d).2.raw.length = _
    rw [raw]
  rw [HttpServer.onData_plain _ inv.plain, HttpServer.feed_eq _ c unsettled d, done, HttpServer.resolve]
  by_cases failed : (Request.receiver.receive c.request d).2.state = .errorSet
  · -- the header block reached cannot be read
    right
    refine ⟨"Invalid HTTP request",
      { c with request := (Request.receiver.receive c.request d).2,
               link := Web.Controller.requestError c.link "Invalid HTTP request" }, Or.inl rfl, ?_, rfl,
      by rw [inv.link]⟩
    rw [if_pos (by simpa using failed), HttpServer.drive_close]
  have readable : ((Request.receiver.receive c.request d).2.state == .errorSet) = false := by
    simpa using failed
  have limit : (recorder max ws).maxMessageSize = max := rfl
  rw [readable, if_neg Bool.false_ne_true, Bool.not_false, if_pos rfl, length, limit]
  by_cases large : max < (ps.flatten ++ d).length
  · -- the read leaves the request past the size limit
    right
    refine ⟨"Request too large",
      { c with request := (Request.receiver.receive c.request d).2,
               link := Web.Controller.requestError c.link "Request too large" }, Or.inr rfl, ?_, rfl,
      by rw [inv.link]⟩
    rw [if_pos large, HttpServer.drive_close]
  · left
    refine ⟨{ c with request := (Request.receiver.receive c.request d).2 }, ?_,
      ⟨inv.dispatched, inv.link, inv.plain, eq, sound, by rw [raw, fed], within', failed, ?_⟩⟩
    · rw [if_neg large, HttpServer.drive_wait]
      simp [inv.link, connected]
    · rw [fed]
      omega

/-- Reads of refused bytes, all of them: every read but the last keeps the connection open, and the
last answers `400` and closes it, with nothing dispatched. -/
theorem Failing.receiveReads (ws : Bool) (connected : l.session.connected = true) (fails : Request.Fails max bad) :
    ∀ {cs ps : List (List UInt8)} {c : HttpConnection (List Request × List (List UInt8))},
      Failing max l done bad ps c → ps.flatten ++ cs.flatten = bad →
      ∃ k e, (e = "Invalid HTTP request" ∨ e = "Request too large") ∧
        ((recorder max ws).receiveReads c cs).1 = List.replicate k true ++ [false] ∧
        List.Forall₂ Request.Same ((recorder max ws).receiveReads c cs).2.services.1 (done.map Request.ofBytes) ∧
        ((recorder max ws).receiveReads c cs).2.link = Web.Controller.requestError l e := by
  intro cs
  induction cs with
  | nil =>
    intro ps c inv stream
    have := inv.short fails
    rw [← stream] at this
    simp at this
  | cons d cs ih =>
    intro ps c inv stream
    have within : ps.flatten ++ d <+: bad := by
      rw [← stream]
      exact ⟨cs.flatten, by simp⟩
    rcases inv.onData ws connected fails within with ⟨c', read, inv'⟩ | ⟨e, c', error, read, services, link⟩
    · -- the read keeps the connection open: the later reads go on from there
      obtain ⟨k, e, error, answers, dispatched, link⟩ := ih inv' (by rw [← stream]; simp)
      have run : (recorder max ws).receiveReads c (d :: cs) =
          (true :: ((recorder max ws).receiveReads c' cs).1, ((recorder max ws).receiveReads c' cs).2) := by
        rw [HttpServer.receiveReads_cons, read]
        rfl
      refine ⟨k + 1, e, error, ?_, ?_, ?_⟩ <;> rw [run]
      · simp [answers, List.replicate_succ]
      · exact dispatched
      · exact link
    · have run : (recorder max ws).receiveReads c (d :: cs) = ([false], c') := by
        rw [HttpServer.receiveReads_cons, read]
        rfl
      rw [run]
      exact ⟨0, e, error, rfl, by simpa [services] using inv.dispatched, link⟩

end Failing

section

variable [Crypto]

theorem recorder_refuses_after_pipelined {max : Nat} {l : Link} {ws : Bool} (connected : l.session.connected = true)
    {bs cs : List (List UInt8)} {bad : List UInt8} (plain : ∀ b ∈ bs, PlainRequest max b)
    (fails : Request.Fails max bad) (stream : cs.flatten = bs.flatten ++ bad) :
    ∃ k e, (e = "Invalid HTTP request" ∨ e = "Request too large") ∧
      ((recorder max ws).receiveReads { services := ([], []), link := l } cs).1 = List.replicate k true ++ [false] ∧
      List.Forall₂ Request.Same ((recorder max ws).receiveReads { services := ([], []), link := l } cs).2.services.1
        (bs.map Request.ofBytes) ∧
      ((recorder max ws).receiveReads { services := ([], []), link := l } cs).2.link = Web.Controller.requestError l e := by
  obtain ⟨c', ps', k, s, rest, serving, empty, bytes, -, run⟩ :=
    recorder_reads_past_pipelined connected plain (List.ne_nil_of_length_pos fails.length_pos) stream
  have pieces : ps'.flatten ++ (s :: rest).flatten = bad := by rw [empty, List.nil_append]; exact bytes
  obtain ⟨k', e, error, answers, dispatched, link⟩ := Failing.receiveReads ws connected fails (serving.failing empty) pieces
  rw [run]
  refine ⟨k + k', e, error, ?_, dispatched, link⟩
  simp only [answers]
  rw [List.replicate_add, List.append_assoc]

/-! ## An accepted upgrade -/

/-- What the upgrade offer of a connection with the size limit `max` makes of a request: the
judgement of a fresh server engine, with a handler that lets every upgrade go ahead. -/
def handshake (max : Nat) (r : Request) : Upgrade × Engine × Response × Unit :=
  (Engine.fresh false max).serverUpgrade r {} () (fun u _ r => (true, r, u))

theorem handshake_congr {max : Nat} {r r' : Request} (same : Request.Same r r') :
    handshake max r = handshake max r' := by
  unfold handshake Engine.serverUpgrade
  rw [same.method, same.headers]

theorem handshake_accepted {max : Nat} {r : Request} (accepted : (handshake max r).1 = .accepted) :
    (handshake max r).2.1 = { Engine.fresh false max with handshaked := true } ∧
      (handshake max r).2.2.1.status = 101 := by
  revert accepted
  unfold handshake Engine.serverUpgrade
  split
  · simp
  dsimp only
  split
  · simp
  split
  · split
    · simp
      rfl
    · simp
  · simp

omit [Crypto] in
theorem recorder_websocket (max : Nat) :
    (recorder max true).websocket = some fun s l d => ((s.1, s.2 ++ [d]), l) := rfl

omit [Crypto] in
theorem bridge_keepsOpen {ev : Event} (calm : ev.keepsOpen = true) (s : List Request × List (List UInt8))
    {link : Link} (connected : link.session.connected = true) :
    ∃ link', HttpServer.bridge (fun s l d => ((s.1, s.2 ++ [d]), l)) (s, link) ev = ((s.1, s.2 ++ ev.delivered), link') ∧
      link'.session.written = link.session.written ++ ev.answer ∧ link'.session.connected = true := by
  cases ev with
  | message data => exact ⟨link, rfl, by simp [Event.answer], connected⟩
  | ping data =>
    refine ⟨link.send (encodeFrame .pong true none data 0), by simp [HttpServer.bridge, Event.delivered], ?_, ?_⟩ <;>
      simp [Event.answer, Link.send, Session.send, connected]
  | pong data => exact ⟨link, by simp [HttpServer.bridge, Event.delivered], by simp [Event.answer], connected⟩
  | close data status => simp [Event.keepsOpen] at calm
  | error text => simp [Event.keepsOpen] at calm

omit [Crypto] in
theorem foldl_bridge_keepsOpen :
    ∀ {events : List Event} (s : List Request × List (List UInt8)) {link : Link},
      (∀ ev ∈ events, ev.keepsOpen = true) → link.session.connected = true →
      (events.foldl (HttpServer.bridge fun s l d => ((s.1, s.2 ++ [d]), l)) (s, link)).1 =
          (s.1, s.2 ++ events.flatMap Event.delivered) ∧
        (events.foldl (HttpServer.bridge fun s l d => ((s.1, s.2 ++ [d]), l)) (s, link)).2.session.written =
          link.session.written ++ events.flatMap Event.answer ∧
        (events.foldl (HttpServer.bridge fun s l d => ((s.1, s.2 ++ [d]), l)) (s, link)).2.session.connected = true := by
  intro events
  induction events with
  | nil => intro s link _ connected; simp [connected]
  | cons ev events ih =>
    intro s link calm connected
    obtain ⟨link', step, sent, open'⟩ := bridge_keepsOpen (calm ev (List.mem_cons_self ..)) s connected
    obtain ⟨services, written, open_⟩ :=
      ih (s.1, s.2 ++ ev.delivered) (fun ev' mem => calm ev' (List.mem_cons_of_mem ev mem)) open'
    rw [List.foldl_cons, step]
    exact ⟨by simp [services], by simp [written, sent], open_⟩

theorem recorder_upgrade {max : Nat} (c : HttpConnection (List Request × List (List UInt8))) {r : Request}
    (connected : c.link.session.connected = true) (accepted : (handshake max r).1 = .accepted) :
    (recorder max true).handleRequest c r =
      (true, { c with upgraded := some (handshake max r).2.1,
                      link := { c.link with session := { (c.link.session.send (handshake max r).2.2.1.raw).2 with
                                                        framing := .webSocket } } }) := by
  have offer : (recorder max true).upgrade c r = some (true,
      { c with upgraded := some (handshake max r).2.1,
               link := { c.link with session := { (c.link.session.send (handshake max r).2.2.1.raw).2 with
                                                 framing := .webSocket } } }) := by
    unfold HttpServer.upgrade
    rw [show (Engine.fresh false (recorder max true).maxMessageSize).serverUpgrade r {} ()
        (fun u _ r => (true, r, u)) = handshake max r from rfl, recorder_websocket, Option.bind_some]
    revert accepted
    generalize handshake max r = x
    rcases x with ⟨outcome, e, response, u⟩
    rintro (rfl : outcome = .accepted)
    simp [Session.send, connected]
  rw [HttpServer.handleRequest, offer]

theorem ready_handshake {max : Nat} {r : Request} (accepted : (handshake max r).1 = .accepted) :
    (handshake max r).2.1.Ready := by
  rw [(handshake_accepted accepted).1]
  exact Or.inr ⟨rfl, trivial⟩

theorem recorder_onData_upgraded {max : Nat} {c : HttpConnection (List Request × List (List UInt8))} {e : Engine}
    (engine : c.upgraded = some e) (data : List UInt8) :
    (recorder max true).onData c data =
      (((e.receive data).1.foldl (HttpServer.bridge fun s l d => ((s.1, s.2 ++ [d]), l)) (c.services, c.link)).2.session.connected,
        { c with upgraded := some (e.receive data).2,
                 services := ((e.receive data).1.foldl (HttpServer.bridge fun s l d => ((s.1, s.2 ++ [d]), l))
                   (c.services, c.link)).1,
                 link := ((e.receive data).1.foldl (HttpServer.bridge fun s l d => ((s.1, s.2 ++ [d]), l))
                   (c.services, c.link)).2 }) := by
  simp only [HttpServer.onData, engine, Option.isSome_some, if_true]
  unfold HttpServer.receiveFrames
  rw [engine, recorder_websocket]

/-- After an accepted upgrade answered with `response`, a connection of the recorder on the link
`l` that had dispatched the requests `done` and has handed the bytes `fed` to the engine `e₀` the
handshake left: the engine has read them as one call, its messages have reached the service, and
its pings have been answered. -/
structure Upgraded (l : Link) (done : List (List UInt8)) (e₀ : Engine) (response : Response) (fed : List UInt8)
    (c : HttpConnection (List Request × List (List UInt8))) : Prop where
  dispatched : List.Forall₂ Request.Same c.services.1 (done.map Request.ofBytes)
  engine : c.upgraded = some (e₀.receive fed).2
  messages : c.services.2 = (e₀.receive fed).1.flatMap Event.delivered
  written : c.link.session.written = l.session.written ++ response.raw ++ (e₀.receive fed).1.flatMap Event.answer
  connected : c.link.session.connected = true

section Upgraded

variable {max : Nat} {l : Link} {done : List (List UInt8)} {e₀ : Engine} {response : Response}

/-- A read on an upgraded connection whose engine reports only events that keep it open. -/
theorem Upgraded.onData (max : Nat) (ready : e₀.Ready) {fed d : List UInt8} {c : HttpConnection (List Request × List (List UInt8))}
    (inv : Upgraded l done e₀ response fed c) (calm : ∀ ev ∈ (e₀.receive (fed ++ d)).1, ev.keepsOpen = true) :
    ∃ c', (recorder max true).onData c d = (true, c') ∧ Upgraded l done e₀ response (fed ++ d) c' := by
  rcases Engine.receive_append ready fed d with ⟨same, pre, ev, events, fatal, -⟩ | ⟨split, -⟩
  · -- an error that drops the rest of the bytes would close the connection
    have := calm ev (by rw [same, events]; simp)
    rw [Event.keepsOpen_of_isFatal fatal] at this
    cases this
  · have calm' : ∀ ev ∈ ((e₀.receive fed).2.receive d).1, ev.keepsOpen = true := fun ev mem =>
      calm ev (by rw [split]; exact List.mem_append_right _ mem)
    obtain ⟨services, written, connected⟩ := foldl_bridge_keepsOpen c.services calm' inv.connected
    refine ⟨_, by rw [recorder_onData_upgraded inv.engine, connected], ?_⟩
    refine ⟨by rw [services]; exact inv.dispatched, by rw [split], ?_, ?_, connected⟩
    · rw [services, inv.messages, split]
      simp
    · rw [written, inv.written, split]
      simp

/-- Reads on an upgraded connection whose engine reports only events that keep it open. -/
theorem Upgraded.receiveReads (max : Nat) (ready : e₀.Ready) :
    ∀ {cs : List (List UInt8)} {fed : List UInt8} {c : HttpConnection (List Request × List (List UInt8))},
      Upgraded l done e₀ response fed c → (∀ ev ∈ (e₀.receive (fed ++ cs.flatten)).1, ev.keepsOpen = true) →
      ∃ c', (recorder max true).receiveReads c cs = (cs.map fun _ => true, c') ∧
        Upgraded l done e₀ response (fed ++ cs.flatten) c' := by
  intro cs
  induction cs with
  | nil =>
    intro fed c inv _
    exact ⟨c, rfl, by simpa using inv⟩
  | cons d cs ih =>
    intro fed c inv calm
    have later : fed ++ d <+: fed ++ (d :: cs).flatten := ⟨cs.flatten, by simp⟩
    obtain ⟨c₁, read, inv₁⟩ := inv.onData max ready fun ev mem =>
      calm ev ((Engine.receive_prefix ready later).subset mem)
    obtain ⟨c', run, inv'⟩ := ih inv₁ (by simpa using calm)
    refine ⟨c', ?_, by simpa using inv'⟩
    rw [HttpServer.receiveReads_cons, read]
    simp [run]

omit [Crypto] in
theorem Serving.upgraded {todo ps : List (List UInt8)} {c : HttpConnection (List Request × List (List UInt8))}
    (inv : Serving l done todo ps c) (connected : l.session.connected = true) :
    Upgraded l done e₀ response []
      { c with request := {}, upgraded := some e₀,
               link := { c.link with session := { (c.link.session.send response.raw).2 with framing := .webSocket } } } :=
  ⟨inv.dispatched, by rw [Engine.receive_nil], by simp [inv.messages, Engine.receive_nil],
    by simp [Engine.receive_nil, Session.send, inv.link, connected], by simp [Session.send, inv.link, connected]⟩

/-- A read on a connection receiving a request whose upgrade the handshake accepts, followed by
bytes whose frames keep the connection open. Either it leaves the request short, or it completes
it: the upgrade is answered, and the bytes past the request go to the engine. -/
theorem Serving.onData_upgrade (connected : l.session.connected = true) {u rest : List UInt8}
    (whole : Request.Whole u) (fits : u.length ≤ max)
    (accepted : (handshake max (Request.ofBytes u)).1 = .accepted)
    (calm : ∀ ev ∈ ((handshake max (Request.ofBytes u)).2.1.receive rest).1, ev.keepsOpen = true)
    {ps : List (List UInt8)} {c : HttpConnection (List Request × List (List UInt8))} {d : List UInt8}
    (inv : Serving l done [u] ps c) (within : ps.flatten ++ d <+: u ++ rest) :
    (∃ c', (recorder max true).onData c d = (true, c') ∧ Serving l done [u] (ps ++ [d]) c') ∨
      ∃ c', (recorder max true).onData c d = (true, c') ∧ u.length ≤ (ps.flatten ++ d).length ∧
        Upgraded l done (handshake max (Request.ofBytes u)).2.1 (handshake max (Request.ofBytes u)).2.2.1
          ((ps.flatten ++ d).drop u.length) c' := by
  have rcv := inv.receiving
  by_cases short : (ps.flatten ++ d).length < u.length
  · -- the read leaves the request short: the connection waits for the rest
    left
    obtain ⟨fed, next⟩ := (recorder max true).feed_short rcv whole fits within short
    exact ⟨_, (recorder max true).onData_wait inv.plain fed (inv.link ▸ connected), inv.take next⟩
  · -- the read completes the request: the upgrade is answered, and the bytes after it go on
    right
    have long : u.length ≤ (ps.flatten ++ d).length := by omega
    obtain ⟨r, same, fed⟩ := (recorder max true).feed_long rcv whole within long
    obtain ⟨s, split⟩ : u <+: ps.flatten ++ d :=
      List.prefix_of_prefix_length_le (List.prefix_append u _) within (by omega)
    have surplus : (ps.flatten ++ d).drop u.length = s := by
      rw [← split, List.drop_left]
    have later : s <+: rest := by
      rw [← split] at within
      exact (List.prefix_append_right_inj u).1 within
    have offer := recorder_upgrade { c with request := {} } (by simp [inv.link, connected])
      (show (handshake max r).1 = .accepted by rw [handshake_congr same]; exact accepted)
    rw [handshake_congr same] at offer
    rw [surplus, HttpServer.dispatch, offer] at fed
    have ready := ready_handshake accepted
    have upgraded : Upgraded l done (handshake max (Request.ofBytes u)).2.1 (handshake max (Request.ofBytes u)).2.2.1
        [] _ := inv.upgraded connected
    rw [surplus, HttpServer.onData_plain _ inv.plain, fed]
    by_cases none : s = []
    · subst none
      exact ⟨_, by simp [HttpServer.drive_wait, inv.link, connected, Session.send], long, upgraded⟩
    · simp only [List.isEmpty_iff, none, if_false]
      rw [(recorder max true).drive_next_upgraded (by simp [inv.link, connected, Session.send]) rfl]
      obtain ⟨c', read, up⟩ := upgraded.onData max ready fun ev mem =>
        calm ev ((Engine.receive_prefix ready (show [] ++ s <+: rest by simpa using later)).subset mem)
      exact ⟨c', read, long, by simpa using up⟩

theorem Serving.receiveReads_upgrade (connected : l.session.connected = true) {u rest : List UInt8}
    (whole : Request.Whole u) (fits : u.length ≤ max)
    (accepted : (handshake max (Request.ofBytes u)).1 = .accepted)
    (calm : ∀ ev ∈ ((handshake max (Request.ofBytes u)).2.1.receive rest).1, ev.keepsOpen = true) :
    ∀ {cs ps : List (List UInt8)} {c : HttpConnection (List Request × List (List UInt8))},
      Serving l done [u] ps c → ps.flatten ++ cs.flatten = u ++ rest →
      ∃ c', (recorder max true).receiveReads c cs = (cs.map fun _ => true, c') ∧
        Upgraded l done (handshake max (Request.ofBytes u)).2.1 (handshake max (Request.ofBytes u)).2.2.1 rest c' := by
  intro cs
  induction cs with
  | nil =>
    intro ps c inv stream
    have := inv.short u rfl
    rw [List.flatten_nil, List.append_nil] at stream
    rw [stream, List.length_append] at this
    omega
  | cons d cs ih =>
    intro ps c inv stream
    have within : ps.flatten ++ d <+: u ++ rest := by
      rw [← stream]
      exact ⟨cs.flatten, by simp⟩
    rcases inv.onData_upgrade connected whole fits accepted calm within with
      ⟨c₁, read, inv₁⟩ | ⟨c₁, read, long, up⟩
    · obtain ⟨c', run, inv'⟩ := ih inv₁ (by rw [← stream]; simp)
      refine ⟨c', ?_, inv'⟩
      rw [HttpServer.receiveReads_cons, read]
      simp [run]
    · have fed : (ps.flatten ++ d).drop u.length ++ cs.flatten = rest := by
        rw [← List.drop_append_of_le_length long]
        have := congrArg (List.drop u.length) stream
        simpa using this
      obtain ⟨c', run, up'⟩ := up.receiveReads max (ready_handshake accepted) (by rw [fed]; exact calm)
      refine ⟨c', ?_, by rwa [fed] at up'⟩
      rw [HttpServer.receiveReads_cons, read]
      simp [run]

end Upgraded

theorem recorder_upgrades_after_pipelined {max : Nat} {l : Link} (connected : l.session.connected = true)
    {bs cs : List (List UInt8)} {u rest : List UInt8} (plain : ∀ b ∈ bs, PlainRequest max b)
    (whole : Request.Whole u) (fits : u.length ≤ max)
    (accepted : (handshake max (Request.ofBytes u)).1 = .accepted)
    (calm : ∀ ev ∈ ((handshake max (Request.ofBytes u)).2.1.receive rest).1, ev.keepsOpen = true)
    (stream : cs.flatten = bs.flatten ++ (u ++ rest)) :
    ((recorder max true).receiveReads { services := ([], []), link := l } cs).1 = cs.map (fun _ => true) ∧
      Upgraded l bs (handshake max (Request.ofBytes u)).2.1 (handshake max (Request.ofBytes u)).2.2.1 rest
        ((recorder max true).receiveReads { services := ([], []), link := l } cs).2 := by
  have nonempty : u ++ rest ≠ [] := List.ne_nil_of_length_pos (by
    rw [List.length_append]
    have := whole.length_pos
    omega)
  obtain ⟨c', ps', k, s, rest', serving, empty, bytes, count, run⟩ :=
    recorder_reads_past_pipelined connected plain nonempty stream
  have pieces : ps'.flatten ++ (s :: rest').flatten = u ++ rest := by rw [empty, List.nil_append]; exact bytes
  obtain ⟨c'', after, up⟩ := (serving.expect empty whole.length_pos).receiveReads_upgrade connected whole fits
    accepted calm pieces
  rw [run, after]
  refine ⟨?_, up⟩
  simp only [List.map_const', List.length_cons, ← List.replicate_add, count, Nat.add_assoc]

/-! ## Requests on one connection -/

omit [Crypto] in
theorem whole_of_composed {c : Request} {method url : String} {cmds : List Request.Command}
    {content : List UInt8} (h : Composed c method url cmds content) (m : StartToken method) (u : StartToken url)
    (composable : ∀ x ∈ cmds, x.Composable) (fits : content.length ≤ wordMax) : Request.Whole c.raw := by
  obtain ⟨t, found, ends, given, once⟩ := h.readsBack m u composable fits
  exact ⟨once.complete, Or.inl given, t, found, by rw [once.bodyLength, h.bodyLength]; exact ends⟩

omit [Crypto] in
theorem plainRequest_of_composed {max : Nat} {c : Request} {method url : String} {cmds : List Request.Command}
    {content : List UInt8} (h : Composed c method url cmds content) (m : StartToken method) (u : StartToken url)
    (composable : ∀ x ∈ cmds, x.Composable) (fits : content.length ≤ wordMax) (size : c.raw.length ≤ max)
    (plain : ∀ x ∈ cmds.filterMap Request.Command.header?, upgradeHeader x = false) : PlainRequest max c.raw := by
  obtain ⟨-, -, -, -, once⟩ := h.readsBack m u composable fits
  refine ⟨whole_of_composed h m u composable fits, size, ?_⟩
  rw [once.headers, h.headers]
  intro x mem
  rcases List.mem_append.1 mem with header | length
  · exact plain x header
  · -- the declared length bears on no upgrade
    have connection : Ascii.eqFold "Content-Length" "Connection" = false := by decide
    have upgrade : Ascii.eqFold "Content-Length" "Upgrade" = false := by decide
    have key : Ascii.eqFold "Content-Length" "Sec-WebSocket-Key" = false := by decide
    have version : Ascii.eqFold "Content-Length" "Sec-WebSocket-Version" = false := by decide
    rw [List.mem_singleton.1 length]
    simp [upgradeHeader, connection, upgrade, key, version]

/-- Requests sent back to back on a connection of a server whose controller records what it is
given, each whole, framed by its declared length or its method, no longer than the size limit and
with no header that bears on an upgrade, read in any pieces. With or without a WebSocket service,
every read keeps the connection open, and each request is dispatched once, in order, as it reads
alone. Followed by bytes the connection refuses (a header block that cannot be read, or more than
the size limit before the request completes), every read keeps the connection open until one
answers `400` and closes it, with only the requests before dispatched. With a WebSocket service,
followed by a request whose upgrade the handshake accepts, the upgrade is answered with `101`, and
every byte after it, in the same read or in later ones, goes to the engine the handshake left, as
long as its frames keep the connection open. -/
theorem pipelined_requests_are_dispatched_once_in_order {max : Nat} {l : Link}
    (connected : l.session.connected = true) {bs : List (List UInt8)} (plain : ∀ b ∈ bs, PlainRequest max b) :
    (∀ (ws : Bool) (cs : List (List UInt8)), cs.flatten = bs.flatten →
      ((recorder max ws).receiveReads { services := ([], []), link := l } cs).1 = cs.map (fun _ => true) ∧
        List.Forall₂ Request.Same ((recorder max ws).receiveReads { services := ([], []), link := l } cs).2.services.1
          (bs.map Request.ofBytes)) ∧
    (∀ (ws : Bool) (bad : List UInt8) (cs : List (List UInt8)), Request.Fails max bad →
      cs.flatten = bs.flatten ++ bad →
      ∃ k e, (e = "Invalid HTTP request" ∨ e = "Request too large") ∧
        ((recorder max ws).receiveReads { services := ([], []), link := l } cs).1 = List.replicate k true ++ [false] ∧
        List.Forall₂ Request.Same ((recorder max ws).receiveReads { services := ([], []), link := l } cs).2.services.1
          (bs.map Request.ofBytes) ∧
        ((recorder max ws).receiveReads { services := ([], []), link := l } cs).2.link =
          Web.Controller.requestError l e) ∧
    (∀ (u rest : List UInt8) (cs : List (List UInt8)), Request.Whole u → u.length ≤ max →
      (handshake max (Request.ofBytes u)).1 = .accepted →
      (∀ ev ∈ ((handshake max (Request.ofBytes u)).2.1.receive rest).1, ev.keepsOpen = true) →
      cs.flatten = bs.flatten ++ (u ++ rest) →
      (handshake max (Request.ofBytes u)).2.2.1.status = 101 ∧
        ((recorder max true).receiveReads { services := ([], []), link := l } cs).1 = cs.map (fun _ => true) ∧
        Upgraded l bs (handshake max (Request.ofBytes u)).2.1 (handshake max (Request.ofBytes u)).2.2.1 rest
          ((recorder max true).receiveReads { services := ([], []), link := l } cs).2) := by
  refine ⟨fun ws cs stream => recorder_dispatches_pipelined connected plain stream,
    fun ws bad cs fails stream => recorder_refuses_after_pipelined connected plain fails stream,
    fun u rest cs whole fits accepted calm stream => ?_⟩
  exact ⟨(handshake_accepted accepted).2,
    recorder_upgrades_after_pipelined connected plain whole fits accepted calm stream⟩

end

section

attribute [local instance] Crypto.sample

/-- Two GETs sent back to back, read in two pieces split inside the second: both reads keep the
connection open, and the two requests are dispatched in order. -/
theorem two_gets_read_in_two_pieces_are_dispatched_in_order :
    ((recorder 100 false).receiveReads { services := ([], []), link := { admission := { limits := {} }, session := { id := 0 } } }
        [(({} : Request).compose "GET" "/" [Request.Command.setHeader "Host" "a"] []).raw ++
          (({} : Request).compose "GET" "/" [Request.Command.setHeader "Host" "a"] []).raw.take 4,
         (({} : Request).compose "GET" "/" [Request.Command.setHeader "Host" "a"] []).raw.drop 4]).1 = [true, true] ∧
      List.Forall₂ Request.Same
        ((recorder 100 false).receiveReads { services := ([], []), link := { admission := { limits := {} }, session := { id := 0 } } }
          [(({} : Request).compose "GET" "/" [Request.Command.setHeader "Host" "a"] []).raw ++
            (({} : Request).compose "GET" "/" [Request.Command.setHeader "Host" "a"] []).raw.take 4,
           (({} : Request).compose "GET" "/" [Request.Command.setHeader "Host" "a"] []).raw.drop 4]).2.services.1
        [Request.ofBytes (({} : Request).compose "GET" "/" [Request.Command.setHeader "Host" "a"] []).raw,
         Request.ofBytes (({} : Request).compose "GET" "/" [Request.Command.setHeader "Host" "a"] []).raw] := by
  have get : PlainRequest 100 (({} : Request).compose "GET" "/" [Request.Command.setHeader "Host" "a"] []).raw :=
    plainRequest_of_composed (Request.composed_compose _ _ _ (by decide) _) (by decide) (by decide) (by decide)
      (by decide) (by decide +kernel) (by decide)
  have plain : ∀ b ∈ [(({} : Request).compose "GET" "/" [Request.Command.setHeader "Host" "a"] []).raw,
      (({} : Request).compose "GET" "/" [Request.Command.setHeader "Host" "a"] []).raw], PlainRequest 100 b := by
    simp [get]
  have connected : ({ admission := { limits := {} }, session := { id := 0 } } : Link).session.connected = true := rfl
  exact (pipelined_requests_are_dispatched_once_in_order connected plain).1 false
    [(({} : Request).compose "GET" "/" [Request.Command.setHeader "Host" "a"] []).raw ++
      (({} : Request).compose "GET" "/" [Request.Command.setHeader "Host" "a"] []).raw.take 4,
     (({} : Request).compose "GET" "/" [Request.Command.setHeader "Host" "a"] []).raw.drop 4] (by simp)

def hostGet : List UInt8 := (({} : Request).compose "GET" "/" [Request.Command.setHeader "Host" "a"] []).raw

def upgradeGetCommands : List Request.Command :=
  [.setHeader "Upgrade" "websocket", .setHeader "Connection" "Upgrade",
    .setHeader "Sec-WebSocket-Key" "dGhlIHNhbXBsZSBub25jZQ==", .setHeader "Sec-WebSocket-Version" "13"]

def upgradeGet : List UInt8 := (({} : Request).compose "GET" "/" upgradeGetCommands []).raw

theorem plainRequest_hostGet : PlainRequest 256 hostGet :=
  plainRequest_of_composed (Request.composed_compose _ _ _ (by decide) _) (by decide) (by decide) (by decide)
    (by decide) (by decide +kernel) (by decide)

theorem get_then_invalid_bytes_are_refused_after_dispatch :
    ∃ k e, (e = "Invalid HTTP request" ∨ e = "Request too large") ∧
      ((recorder 256 false).receiveReads { services := ([], []), link := { admission := { limits := {} }, session := { id := 0 } } }
          [hostGet, utf8 "BAD\r\n\r\n"]).1 = List.replicate k true ++ [false] ∧
      List.Forall₂ Request.Same
        ((recorder 256 false).receiveReads { services := ([], []), link := { admission := { limits := {} }, session := { id := 0 } } }
          [hostGet, utf8 "BAD\r\n\r\n"]).2.services.1 [Request.ofBytes hostGet] ∧
      ((recorder 256 false).receiveReads { services := ([], []), link := { admission := { limits := {} }, session := { id := 0 } } }
          [hostGet, utf8 "BAD\r\n\r\n"]).2.link =
        Web.Controller.requestError { admission := { limits := {} }, session := { id := 0 } } e := by
  have plain : ∀ b ∈ [hostGet], PlainRequest 256 b := by simp [plainRequest_hostGet]
  have connected : ({ admission := { limits := {} }, session := { id := 0 } } : Link).session.connected = true := rfl
  have fails : Request.Fails 256 (utf8 "BAD\r\n\r\n") := Or.inl (by decide +kernel)
  exact (pipelined_requests_are_dispatched_once_in_order connected plain).2.1 false (utf8 "BAD\r\n\r\n")
    [hostGet, utf8 "BAD\r\n\r\n"] fails (by simp)

theorem get_then_upgrade_is_answered_with_switching_protocols :
    (handshake 256 (Request.ofBytes upgradeGet)).2.2.1.status = 101 ∧
      ((recorder 256 true).receiveReads { services := ([], []), link := { admission := { limits := {} }, session := { id := 0 } } }
          [hostGet ++ upgradeGet]).1 = [true] ∧
      Upgraded { admission := { limits := {} }, session := { id := 0 } } [hostGet]
        (handshake 256 (Request.ofBytes upgradeGet)).2.1 (handshake 256 (Request.ofBytes upgradeGet)).2.2.1 []
        ((recorder 256 true).receiveReads { services := ([], []), link := { admission := { limits := {} }, session := { id := 0 } } }
          [hostGet ++ upgradeGet]).2 := by
  have plain : ∀ b ∈ [hostGet], PlainRequest 256 b := by simp [plainRequest_hostGet]
  have connected : ({ admission := { limits := {} }, session := { id := 0 } } : Link).session.connected = true := rfl
  have composed : Composed (({} : Request).compose "GET" "/" upgradeGetCommands []) "GET" "/" upgradeGetCommands [] :=
    Request.composed_compose _ _ _ (by decide) _
  have whole : Request.Whole upgradeGet := whole_of_composed composed (by decide) (by decide) (by decide) (by decide)
  obtain ⟨-, -, -, -, once⟩ := composed.readsBack (by decide) (by decide) (by decide) (by decide)
  have accepted : (handshake 256 (Request.ofBytes upgradeGet)).1 = .accepted := by
    rw [upgradeGet, handshake_congr ⟨once.method, once.url, once.protocol, once.headers, once.cookies, once.body⟩]
    decide +kernel
  have calm : ∀ ev ∈ ((handshake 256 (Request.ofBytes upgradeGet)).2.1.receive []).1, ev.keepsOpen = true := by
    simp [Engine.receive_nil]
  exact (pipelined_requests_are_dispatched_once_in_order connected plain).2.2 upgradeGet [] [hostGet ++ upgradeGet]
    whole (by decide +kernel) accepted calm (by simp)

end

end Switchboard.Server
