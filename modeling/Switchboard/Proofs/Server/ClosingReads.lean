import Mathlib
import Switchboard.Proofs.Server.RefusalAndUpgrade
/-!
# The read that closes an upgraded connection

An upgraded connection hands each read to its engine as one call and the events to the service in
order. The first close or error among them is answered with a close frame and disconnects the
session: the read then closes the connection and no later read reaches the engine or the service
(`closing_read_ends_the_session_with_its_own_frames`). Every ping before it has been answered with a
pong. The events after it in the same read are still acted on: on the disconnected session nothing
more is sent, but each message still reaches the service (`bridge_disconnected`).
-/
namespace Switchboard.WebSocket

/-- What a connection sends back for an event that closes it: a close frame echoing a close's
status, or the protocol-error status for an error. -/
def Event.farewell : Event → List UInt8
  | .close _ status => encodeFrame .close true none [] status
  | .error _ => encodeFrame .close true none [] Server.closeProtocolError
  | .message _ | .ping _ | .pong _ => []

end Switchboard.WebSocket

namespace Switchboard.Server

open Switchboard.Http
open Switchboard.WebSocket

theorem HttpServer.receiveReads_append_of_kept {σ : Type} [Crypto] (h : HttpServer σ) :
    ∀ {cs : List (List UInt8)} {c c₁ : HttpConnection σ}, h.receiveReads c cs = (cs.map fun _ => true, c₁) →
      ∀ ds, h.receiveReads c (cs ++ ds) = (cs.map (fun _ => true) ++ (h.receiveReads c₁ ds).1, (h.receiveReads c₁ ds).2) := by
  intro cs
  induction cs with
  | nil =>
    intro c c₁ kept ds
    obtain rfl : c = c₁ := (Prod.mk.inj kept).2
    rfl
  | cons x cs ih =>
    intro c c₁ kept ds
    rw [HttpServer.receiveReads_cons] at kept
    rw [List.cons_append, HttpServer.receiveReads_cons]
    split at kept
    · obtain ⟨head, tail⟩ := Prod.mk.inj kept
      rw [if_pos ‹_›, ih (Prod.ext (List.cons.inj head).2 tail) ds]
      simp
    · simp at kept

/-- On a disconnected session an event sends nothing, and a message still reaches the recorder's
service. -/
theorem bridge_disconnected (s : List Request × List (List UInt8)) {link : Link}
    (disconnected : link.session.connected = false) (ev : Event) :
    HttpServer.bridge (fun s l d => ((s.1, s.2 ++ [d]), l)) (s, link) ev = ((s.1, s.2 ++ ev.delivered), link) := by
  cases ev <;>
    simp [HttpServer.bridge, Event.delivered, Link.send, Session.send, Link.close, Session.disconnect, disconnected]

theorem foldl_bridge_disconnected (events : List Event) (s : List Request × List (List UInt8)) {link : Link}
    (disconnected : link.session.connected = false) :
    events.foldl (HttpServer.bridge fun s l d => ((s.1, s.2 ++ [d]), l)) (s, link) =
      ((s.1, s.2 ++ events.flatMap Event.delivered), link) := by
  induction events generalizing s with
  | nil => simp
  | cons ev events ih =>
    rw [List.foldl_cons, bridge_disconnected s disconnected, ih]
    simp

theorem bridge_closing {stop : Event} (closing : stop.keepsOpen = false) (s : List Request × List (List UInt8))
    {link : Link} (connected : link.session.connected = true) :
    ∃ link', HttpServer.bridge (fun s l d => ((s.1, s.2 ++ [d]), l)) (s, link) stop = (s, link') ∧
      link'.session.written = link.session.written ++ stop.farewell ∧ link'.session.connected = false := by
  cases stop with
  | close data status | error text =>
    exact ⟨_, rfl, by simp [Event.farewell, Link.close, Link.send, Session.send, Session.disconnect, connected],
      by simp [Link.close, Link.send, Session.send, Session.disconnect, connected]⟩
  | message data | ping data | pong data => simp [Event.keepsOpen] at closing

theorem foldl_bridge_closing {pre post : List Event} {stop : Event} (calm : ∀ ev ∈ pre, ev.keepsOpen = true)
    (closing : stop.keepsOpen = false) (s : List Request × List (List UInt8)) {link : Link}
    (connected : link.session.connected = true) :
    ((pre ++ stop :: post).foldl (HttpServer.bridge fun s l d => ((s.1, s.2 ++ [d]), l)) (s, link)).1 =
        (s.1, s.2 ++ (pre ++ post).flatMap Event.delivered) ∧
      ((pre ++ stop :: post).foldl (HttpServer.bridge fun s l d => ((s.1, s.2 ++ [d]), l)) (s, link)).2.session.written =
        link.session.written ++ pre.flatMap Event.answer ++ stop.farewell ∧
      ((pre ++ stop :: post).foldl (HttpServer.bridge fun s l d => ((s.1, s.2 ++ [d]), l)) (s, link)).2.session.connected =
        false := by
  obtain ⟨services, written, open_⟩ := foldl_bridge_keepsOpen s calm connected
  rw [List.foldl_append, List.foldl_cons]
  generalize pre.foldl (HttpServer.bridge fun s l d => ((s.1, s.2 ++ [d]), l)) (s, link) = x at services written open_ ⊢
  obtain ⟨link', step, sent, shut⟩ := bridge_closing closing x.1 open_
  rw [show x = (x.1, x.2) from rfl, step, foldl_bridge_disconnected post x.1 shut, services]
  refine ⟨by simp, ?_, shut⟩
  rw [sent, written]

section

variable [Crypto] {max : Nat} {l : Link} {done : List (List UInt8)} {e₀ : Engine} {response : Response}

theorem Upgraded.onData_closing (max : Nat) {fed d : List UInt8} {c : HttpConnection (List Request × List (List UInt8))}
    (inv : Upgraded l done e₀ response fed c) {pre post : List Event} {stop : Event}
    (events : ((e₀.receive fed).2.receive d).1 = pre ++ stop :: post) (calm : ∀ ev ∈ pre, ev.keepsOpen = true)
    (closing : stop.keepsOpen = false) :
    ∃ c', (recorder max true).onData c d = (false, c') ∧
      List.Forall₂ Request.Same c'.services.1 (done.map Request.ofBytes) ∧
      c'.services.2 = (e₀.receive fed).1.flatMap Event.delivered ++ (pre ++ post).flatMap Event.delivered ∧
      c'.link.session.written =
        l.session.written ++ response.raw ++ (e₀.receive fed).1.flatMap Event.answer ++ pre.flatMap Event.answer ++
          stop.farewell ∧
      c'.link.session.connected = false := by
  obtain ⟨services, written, shut⟩ := foldl_bridge_closing calm closing c.services inv.connected
  rw [← events] at services written shut
  refine ⟨_, by rw [recorder_onData_upgraded inv.engine, shut], ?_, ?_, ?_, shut⟩
  · rw [services]
    exact inv.dispatched
  · rw [services, inv.messages]
  · rw [written, inv.written]

/-- A session upgraded after the requests `done` and answered with `response` closes on the read
whose engine events hold the first close or error, once the reads before it kept it open. That
read is the last the connection is handed: no later read reaches the engine or the service. Every
message before the close reaches the service, and every ping before it is answered with a pong; the
close is answered with a close frame echoing its status, an error with the protocol-error status,
and the session is disconnected. The messages after the close in the same read still reach the
service. -/
theorem closing_read_ends_the_session_with_its_own_frames (max : Nat) (ready : e₀.Ready) {fed : List UInt8}
    {c : HttpConnection (List Request × List (List UInt8))} (upgraded : Upgraded l done e₀ response fed c)
    {cs : List (List UInt8)} (calm : ∀ ev ∈ (e₀.receive (fed ++ cs.flatten)).1, ev.keepsOpen = true)
    {d : List UInt8} {pre post : List Event} {stop : Event}
    (events : ((e₀.receive (fed ++ cs.flatten)).2.receive d).1 = pre ++ stop :: post)
    (before : ∀ ev ∈ pre, ev.keepsOpen = true) (closing : stop.keepsOpen = false) :
    ∃ c' : HttpConnection (List Request × List (List UInt8)),
      (∀ rest, (recorder max true).receiveReads c (cs ++ d :: rest) = (cs.map (fun _ => true) ++ [false], c')) ∧
      List.Forall₂ Request.Same c'.services.1 (done.map Request.ofBytes) ∧
      c'.services.2 =
        (e₀.receive (fed ++ cs.flatten)).1.flatMap Event.delivered ++ (pre ++ post).flatMap Event.delivered ∧
      c'.link.session.written =
        l.session.written ++ response.raw ++ (e₀.receive (fed ++ cs.flatten)).1.flatMap Event.answer ++
          pre.flatMap Event.answer ++ stop.farewell ∧
      c'.link.session.connected = false := by
  -- the reads before keep the connection upgraded; the closing read then ends the reads
  obtain ⟨c₁, kept, upgraded₁⟩ := upgraded.receiveReads max ready calm
  obtain ⟨c', read, dispatched, messages, written, shut⟩ := upgraded₁.onData_closing max events before closing
  refine ⟨c', fun rest => ?_, dispatched, messages, written, shut⟩
  rw [HttpServer.receiveReads_append_of_kept _ kept, HttpServer.receiveReads_cons, read]
  rfl

end

theorem upgraded_fresh (l : Link) (connected : l.session.connected = true) :
    Upgraded l [] (Engine.fresh false) {} [] { services := ([], []), link := l, upgraded := some (Engine.fresh false) } :=
  ⟨.nil, by rw [Engine.receive_nil], by rw [Engine.receive_nil]; rfl,
    by rw [Engine.receive_nil, show ({} : Response).raw = [] from rfl]; simp, connected⟩

section

attribute [local instance] Crypto.sample

/-- A ping and a close in one read: the ping is answered with a pong, the close with a close frame
of the normal status, and the connection reads nothing more. -/
theorem ping_then_close_is_answered_and_ends_the_reads :
    ∃ c' : HttpConnection (List Request × List (List UInt8)),
      (∀ rest, (recorder 100 true).receiveReads
          { services := ([], []), link := { admission := { limits := {} }, session := { id := 0 } },
            upgraded := some (Engine.fresh false) } ([0x89, 1, 7, 0x88, 0] :: rest) = ([false], c')) ∧
        c'.services.2 = [] ∧
        c'.link.session.written = encodeFrame .pong true none [7] 0 ++ encodeFrame .close true none [] 1000 ∧
        c'.link.session.connected = false := by
  have events : (((Engine.fresh false).receive ([] ++ ([] : List (List UInt8)).flatten)).2.receive
      [0x89, 1, 7, 0x88, 0]).1 = [.ping [7]] ++ .close [] 1000 :: [] := by
    decide +kernel
  have calm : ∀ ev ∈ ((Engine.fresh false).receive ([] ++ ([] : List (List UInt8)).flatten)).1, ev.keepsOpen = true := by
    simp [Engine.receive_nil]
  obtain ⟨c', reads, -, messages, written, shut⟩ := closing_read_ends_the_session_with_its_own_frames 100
    (Engine.ready_fresh false wordMax) (upgraded_fresh { admission := { limits := {} }, session := { id := 0 } } rfl)
    calm events
    (by simp [Event.keepsOpen]) rfl
  simp only [List.nil_append, List.flatten_nil, Engine.receive_nil] at reads messages written
  refine ⟨c', fun rest => reads rest, ?_, ?_, shut⟩
  · rw [messages]
    rfl
  · rw [written, show ({} : Response).raw = [] from rfl]
    rfl

/-- A close and then a text frame in one read: the session is disconnected by the close, and the
text still reaches the service. -/
theorem message_after_a_close_in_one_read_reaches_the_service :
    ((recorder 100 true).receiveReads
        { services := ([], []), link := { admission := { limits := {} }, session := { id := 0 } },
          upgraded := some (Engine.fresh false) } [[0x88, 0, 0x81, 1, 97]]).2.services.2 = [[97]] ∧
      ((recorder 100 true).receiveReads
        { services := ([], []), link := { admission := { limits := {} }, session := { id := 0 } },
          upgraded := some (Engine.fresh false) } [[0x88, 0, 0x81, 1, 97]]).2.link.session.connected = false := by
  decide +kernel

end

end Switchboard.Server
