import Switchboard.Proofs.Server.Pipelining
import Switchboard.Proofs.Server.WebAnswerOrder
/-!
# Pipelined requests reach any controller

A server that hands every complete request to its services reads a stream as the recorder does, so
its services are handed the recorded requests one at a time while the session stays connected. For
a web controller that is the bench's handing over of requests.
-/
namespace Switchboard.Server

open Switchboard.Http

namespace HttpServer

variable {σ : Type} (h : HttpServer σ)

/-- Hands requests to the services one at a time, for as long as the session stays connected. -/
def deliver : σ × Link → List Request → σ × Link
  | x, [] => x
  | x, r :: rs => if x.2.session.connected then deliver (h.received x.1 x.2 r) rs else x

theorem deliver_of_disconnected {x : σ × Link} (off : x.2.session.connected = false) (rs : List Request) :
    h.deliver x rs = x := by
  cases rs <;> simp [deliver, off]

theorem deliver_append (x : σ × Link) (rs rs' : List Request) :
    h.deliver x (rs ++ rs') = h.deliver (h.deliver x rs) rs' := by
  induction rs generalizing x with
  | nil => rfl
  | cons r rs ih =>
    cases on : x.2.session.connected
    · simp [deliver, on, h.deliver_of_disconnected on]
    · simp [deliver, on, ih]

/-- A server that hands every complete request to its services: it has no WebSocket service and
serves plain requests. -/
structure Plain : Prop where
  noWebSocket : h.websocket = none
  servesPlain : h.websocketOnly = false

/-- A connection of `h` follows a connection of the recorder given the same reads: its services and
link are those that handing the recorded requests to `h` from `x₀` gives, while connected it reads
the request the recorder reads, and neither has upgraded. -/
structure Follows (x₀ : σ × Link) (c : HttpConnection σ) (cr : HttpConnection (List Request × List (List UInt8))) :
    Prop where
  delivered : (c.services, c.link) = h.deliver x₀ cr.services.1
  request : c.link.session.connected = true → c.request = cr.request
  plain : c.upgraded = none
  recorded : cr.upgraded = none

/-- What the recorder does to its connection: it only adds to its record, and never upgrades. -/
structure Grows (cr cr' : HttpConnection (List Request × List (List UInt8))) : Prop where
  record : cr.services.1 <+: cr'.services.1
  upgraded : cr'.upgraded = cr.upgraded

theorem Grows.refl (cr : HttpConnection (List Request × List (List UInt8))) : Grows cr cr :=
  ⟨List.prefix_refl _, rfl⟩

theorem Grows.trans {cr cr' cr'' : HttpConnection (List Request × List (List UInt8))} (first : Grows cr cr')
    (second : Grows cr' cr'') : Grows cr cr'' :=
  ⟨first.record.trans second.record, second.upgraded.trans first.upgraded⟩

theorem recorder_plain (max : Nat) : (recorder max false).Plain := ⟨rfl, rfl⟩

variable {h} [Crypto]

theorem Plain.handleRequest (plain : h.Plain) (c : HttpConnection σ) (r : Request) :
    h.handleRequest c r =
      (true, { c with services := (h.received c.services c.link r).1, link := (h.received c.services c.link r).2 }) := by
  simp [HttpServer.handleRequest, upgrade, plain.noWebSocket, plain.servesPlain]

omit [Crypto] in
theorem Plain.receiveFrames (plain : h.Plain) (c : HttpConnection σ) (d : List UInt8) : h.receiveFrames c d = c := by
  unfold HttpServer.receiveFrames
  rw [plain.noWebSocket]
  split <;> simp_all

theorem feed_ne_close_of_kept {fed : List UInt8} {x : Feed × HttpConnection σ} (kept : (h.drive fed x).1 = true) :
    x.1 ≠ .close := by
  intro close
  rw [show x = (.close, x.2) from Prod.ext close rfl, drive_close] at kept
  cases kept

theorem drive_not_shorter (fed s : List UInt8) {c : HttpConnection σ} (plain : c.upgraded = none)
    (long : ¬ s.length < fed.length) : h.drive fed (.next s, c) = (c.link.session.connected, c) := by
  rw [drive]
  cases connected : c.link.session.connected <;> simp [plain, long]

section Recorder

variable (m : Nat)

theorem recorder_feed_grows (cr : HttpConnection (List Request × List (List UInt8))) (d : List UInt8) :
    Grows cr ((recorder m false).feed cr d).2 := by
  unfold HttpServer.feed
  simp only [(recorder_plain m).handleRequest]
  dsimp only [recorder]
  split_ifs <;> exact ⟨by simp, rfl⟩

theorem recorder_drive_grows (fed : List UInt8) (x : Feed × HttpConnection (List Request × List (List UInt8))) :
    Grows x.2 ((recorder m false).drive fed x).2 := by
  fun_induction (recorder m false).drive fed x with
  | case1 | case2 | case3 | case6 => exact Grows.refl _
  | case4 fed s c =>
    show Grows c ((recorder m false).receiveFrames c s)
    rw [(recorder_plain m).receiveFrames]
    exact Grows.refl _
  | case5 fed s c _ _ _ ih => exact (recorder_feed_grows m c s).trans ih

theorem recorder_onData_grows (cr : HttpConnection (List Request × List (List UInt8))) (d : List UInt8) :
    Grows cr ((recorder m false).onData cr d).2 := by
  unfold HttpServer.onData
  split
  · rw [(recorder_plain m).receiveFrames]
    exact Grows.refl _
  · exact (recorder_feed_grows m cr d).trans (recorder_drive_grows m d _)

theorem recorder_receiveReads_grows (cr : HttpConnection (List Request × List (List UInt8)))
    (reads : List (List UInt8)) : Grows cr ((recorder m false).receiveReads cr reads).2 := by
  induction reads generalizing cr with
  | nil => exact Grows.refl _
  | cons d reads ih =>
    rw [receiveReads_cons]
    split
    · exact (recorder_onData_grows m cr d).trans (ih _)
    · exact recorder_onData_grows m cr d

end Recorder

section Follows

variable {x₀ : σ × Link} {c : HttpConnection σ} {cr : HttpConnection (List Request × List (List UInt8))}

omit [Crypto] in
theorem Follows.read (follows : h.Follows x₀ c cr) (r : Request) :
    h.Follows x₀ { c with request := r } { cr with request := r } :=
  ⟨follows.delivered, fun _ => rfl, follows.plain, follows.recorded⟩

omit [Crypto] in
theorem Follows.dispatch (follows : h.Follows x₀ c cr) (connected : c.link.session.connected = true) (r : Request) :
    h.Follows x₀
      { c with request := {}, services := (h.received c.services c.link r).1, link := (h.received c.services c.link r).2 }
      { cr with request := {}, services := (cr.services.1 ++ [r], cr.services.2) } where
  delivered := by
    rw [deliver_append, ← follows.delivered]
    simp [deliver, connected]
  request _ := rfl
  plain := follows.plain
  recorded := follows.recorded

omit [Crypto] in
theorem Follows.extend (follows : h.Follows x₀ c cr) (off : c.link.session.connected = false)
    {cr' : HttpConnection (List Request × List (List UInt8))} (grows : Grows cr cr') : h.Follows x₀ c cr' where
  delivered := by
    obtain ⟨more, extended⟩ := grows.record
    rw [← extended, deliver_append, ← follows.delivered, h.deliver_of_disconnected off]
  request on := absurd on (by simp [off])
  plain := follows.plain
  recorded := grows.upgraded.trans follows.recorded

theorem Follows.feed (plain : h.Plain) (follows : h.Follows x₀ c cr)
    (connected : c.link.session.connected = true) (d : List UInt8) :
    ((recorder h.maxMessageSize false).feed cr d).1 = .close ∨
      ((h.feed c d).1 = ((recorder h.maxMessageSize false).feed cr d).1 ∧
        h.Follows x₀ (h.feed c d).2 ((recorder h.maxMessageSize false).feed cr d).2) := by
  unfold HttpServer.feed
  simp only [plain.handleRequest, (recorder_plain h.maxMessageSize).handleRequest, follows.request connected]
  dsimp only [recorder]
  -- every branch closes, reads on into the request, or dispatches the request read
  split_ifs
  all_goals first
    | exact Or.inl rfl
    | exact Or.inr ⟨rfl, follows.read _⟩
    | exact Or.inr ⟨rfl, follows.dispatch connected _⟩

/-- A feed after which the recorder keeps the connection open is one the server follows, asking the
same. -/
theorem Follows.feed_of_kept (plain : h.Plain) (follows : h.Follows x₀ c cr)
    (connected : c.link.session.connected = true) {fed d : List UInt8}
    (kept : ((recorder h.maxMessageSize false).drive fed ((recorder h.maxMessageSize false).feed cr d)).1 = true) :
    h.feed c d = (((recorder h.maxMessageSize false).feed cr d).1, (h.feed c d).2) ∧
      h.Follows x₀ (h.feed c d).2 ((recorder h.maxMessageSize false).feed cr d).2 := by
  rcases follows.feed plain connected d with closes | ⟨same, follows'⟩
  · exact absurd closes (feed_ne_close_of_kept kept)
  · exact ⟨Prod.ext same rfl, follows'⟩

theorem Follows.drive (plain : h.Plain) (fed : List UInt8)
    (x : Feed × HttpConnection (List Request × List (List UInt8))) :
    ∀ {c : HttpConnection σ}, h.Follows x₀ c x.2 → ((recorder h.maxMessageSize false).drive fed x).1 = true →
      h.Follows x₀ (h.drive fed (x.1, c)).2 ((recorder h.maxMessageSize false).drive fed x).2 ∧
        (h.drive fed (x.1, c)).1 = (h.drive fed (x.1, c)).2.link.session.connected := by
  -- on the recorder's run: both take the same branch, the length guard included, until the
  -- server's session closes
  fun_induction (recorder h.maxMessageSize false).drive fed x with
  | case1 fed cr =>
    intro c follows _
    rw [drive_wait]
    exact ⟨follows, rfl⟩
  | case2 | case3 => intro c _ kept; cases kept
  | case4 fed s cr _ up =>
    intro c follows
    have recorded : cr.upgraded = none := follows.recorded
    rw [recorded] at up
    cases up
  | case5 fed s cr _ _ shorter ih =>
    intro c follows kept
    cases connected : c.link.session.connected with
    | false =>
      have stops : h.drive fed (.next s, c) = (false, c) := by
        rw [HttpServer.drive]
        simp [connected]
      rw [stops]
      exact ⟨follows.extend connected ((recorder_feed_grows _ cr s).trans (recorder_drive_grows _ s _)),
        connected.symm⟩
    | true =>
      rw [h.drive_next connected follows.plain shorter, onData_plain h follows.plain]
      obtain ⟨same, follows'⟩ := follows.feed_of_kept plain connected kept
      rw [same]
      exact ih follows' kept
  | case6 fed s cr _ _ long =>
    intro c follows _
    rw [drive_not_shorter fed s follows.plain long]
    exact ⟨follows, rfl⟩

theorem Follows.onData (plain : h.Plain) (follows : h.Follows x₀ c cr)
    (connected : c.link.session.connected = true) {d : List UInt8}
    (kept : ((recorder h.maxMessageSize false).onData cr d).1 = true) :
    h.Follows x₀ (h.onData c d).2 ((recorder h.maxMessageSize false).onData cr d).2 ∧
      (h.onData c d).1 = (h.onData c d).2.link.session.connected := by
  rw [onData_plain _ follows.recorded] at kept ⊢
  rw [onData_plain _ follows.plain]
  obtain ⟨same, follows'⟩ := follows.feed_of_kept plain connected kept
  rw [same]
  exact follows'.drive plain d _ kept

theorem Follows.receiveReads (plain : h.Plain) (reads : List (List UInt8)) :
    ∀ {c : HttpConnection σ} {cr : HttpConnection (List Request × List (List UInt8))},
      h.Follows x₀ c cr → c.link.session.connected = true →
      ((recorder h.maxMessageSize false).receiveReads cr reads).1 = reads.map (fun _ => true) →
      h.Follows x₀ (h.receiveReads c reads).2 ((recorder h.maxMessageSize false).receiveReads cr reads).2 ∧
        ((h.receiveReads c reads).2.link.session.connected = true →
          (h.receiveReads c reads).1 = reads.map fun _ => true) := by
  induction reads with
  | nil =>
    intro c cr follows _ _
    exact ⟨follows, fun _ => rfl⟩
  | cons d reads ih =>
    intro c cr follows connected kept
    rw [receiveReads_cons] at kept
    rw [receiveReads_cons h, receiveReads_cons (recorder h.maxMessageSize false)]
    have here : ((recorder h.maxMessageSize false).onData cr d).1 = true := by
      cases still : ((recorder h.maxMessageSize false).onData cr d).1
      · simp [still] at kept
      · rfl
    rw [if_pos here, List.map_cons, List.cons.injEq] at kept
    rw [if_pos here]
    obtain ⟨follows', ok⟩ := follows.onData plain connected here
    cases still : (h.onData c d).1 with
    | true =>
      obtain ⟨after, all⟩ := ih follows' (ok ▸ still) kept.2
      rw [if_pos rfl]
      exact ⟨after, fun on => by rw [all on, List.map_cons]⟩
    | false =>
      -- the server's session closed on this read, and the recorder reads on
      rw [if_neg Bool.false_ne_true]
      refine ⟨follows'.extend (ok ▸ still) (recorder_receiveReads_grows _ _ reads), fun on => ?_⟩
      rw [← ok, still] at on
      cases on

end Follows

end HttpServer

open HttpServer in
/-- Requests sent back to back, each whole and asking for no upgrade, read in any pieces by a server
that hands every complete request to its services: the services are handed each request once, in
order, as it reads alone, for as long as the session stays connected; a connection still open after
the reads kept it open after each. -/
theorem plain_server_delivers_pipelined [Crypto] {σ : Type} {h : HttpServer σ} (plain : h.Plain) {l : Link}
    (connected : l.session.connected = true) {bs cs : List (List UInt8)}
    (requests : ∀ b ∈ bs, PlainRequest h.maxMessageSize b) (stream : cs.flatten = bs.flatten) (s₀ : σ) :
    ∃ rs, List.Forall₂ Request.Same rs (bs.map Request.ofBytes) ∧
      ((h.receiveReads { services := s₀, link := l } cs).2.services,
          (h.receiveReads { services := s₀, link := l } cs).2.link) = h.deliver (s₀, l) rs ∧
      ((h.receiveReads { services := s₀, link := l } cs).2.link.session.connected = true →
        (h.receiveReads { services := s₀, link := l } cs).1 = cs.map fun _ => true) := by
  have start : h.Follows (s₀, l) { services := s₀, link := l } { services := ([], []), link := l } :=
    ⟨rfl, fun _ => rfl, rfl, rfl⟩
  obtain ⟨follows, all⟩ :=
    start.receiveReads plain cs connected (recorder_dispatches_pipelined connected requests stream).1
  exact ⟨_, (recorder_dispatches_pipelined connected requests stream).2, follows.delivered, all⟩

end Switchboard.Server

namespace Switchboard.Web

open Switchboard.Http
open Switchboard.Server
open WebBench

variable {κ : Type}

/-- Handing requests to a web controller's server is the bench's connection handing them over, the
`i`-th at the time `clock` gives for `n + i`, with no worker acting in between. -/
theorem webServer_deliver (ctl : Controller κ) (max : Nat) (clock : Nat → Nat) (run : κ → Request → Option Response)
    (rs : List Request) (b : WebBench κ) (n : Nat) :
    ((webServer ctl max clock).deliver ((b.fiber, n), b.link) rs).1.1 =
        (steps ctl run ((rs.zipIdx n).map fun p => .receive (clock p.2) p.1) b).fiber ∧
      ((webServer ctl max clock).deliver ((b.fiber, n), b.link) rs).2 =
        (steps ctl run ((rs.zipIdx n).map fun p => .receive (clock p.2) p.1) b).link := by
  induction rs generalizing b n with
  | nil => exact ⟨rfl, rfl⟩
  | cons r rs ih =>
    have step : steps ctl run (((r :: rs).zipIdx n).map fun p => .receive (clock p.2) p.1) b =
        steps ctl run ((rs.zipIdx (n + 1)).map fun p => .receive (clock p.2) p.1) (b.receive ctl (clock n) r) := rfl
    rw [step]
    cases connected : b.link.session.connected with
    | true =>
      rw [receive_of_connected ctl connected]
      simp only [HttpServer.deliver, connected, if_true]
      exact ih { b with fiber := (ctl.onReceived b.fiber b.link (clock n) r).1,
                        link := (ctl.onReceived b.fiber b.link (clock n) r).2, received := b.received ++ [r] } (n + 1)
    | false =>
      -- a closed session takes no more requests, on either side
      have stays : b.receive ctl (clock n) r = b := by simp [WebBench.receive, connected]
      rw [stays, ← (ih b (n + 1)).1, ← (ih b (n + 1)).2, HttpServer.deliver_of_disconnected _ connected,
        HttpServer.deliver_of_disconnected _ connected]
      exact ⟨rfl, rfl⟩

/-- Requests sent back to back, each whole and asking for no upgrade, read in any pieces on a web
session: the connection leaves the fiber and the link of the bench whose connection hands over each
request once, in order, the `i`-th at time `clock i`, with no worker acting during the reads. -/
theorem web_connection_hands_requests_to_bench [Crypto] (ctl : Controller κ) (run : κ → Request → Option Response)
    (clock : Nat → Nat) {max : Nat} {l : Link} (connected : l.session.connected = true) {bs cs : List (List UInt8)}
    (requests : ∀ b ∈ bs, PlainRequest max b) (stream : cs.flatten = bs.flatten) (fiber : Fiber (WebJob κ)) :
    ∃ rs, List.Forall₂ Request.Same rs (bs.map Request.ofBytes) ∧
      ((webServer ctl max clock).receiveReads { services := (fiber, 0), link := l } cs).2.services.1 =
          (steps ctl run (rs.zipIdx.map fun p => .receive (clock p.2) p.1) { link := l, fiber }).fiber ∧
      ((webServer ctl max clock).receiveReads { services := (fiber, 0), link := l } cs).2.link =
          (steps ctl run (rs.zipIdx.map fun p => .receive (clock p.2) p.1) { link := l, fiber }).link := by
  obtain ⟨rs, same, delivered, -⟩ :=
    plain_server_delivers_pipelined (h := webServer ctl max clock) ⟨rfl, rfl⟩ connected requests stream (fiber, 0)
  obtain ⟨fibers, links⟩ := webServer_deliver ctl max clock run rs { link := l, fiber } 0
  refine ⟨rs, same, ?_, ?_⟩
  · rw [← fibers]
    exact congrArg (fun x => x.1.1) delivered
  · rw [← links]
    exact congrArg Prod.snd delivered

end Switchboard.Web
