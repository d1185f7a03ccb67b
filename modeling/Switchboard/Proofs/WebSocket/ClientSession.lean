import Switchboard.Proofs.WebSocket.ClientUpgrade
import Switchboard.Proofs.WebSocket.CarryingOn
/-!
# A WebSocket client's session after the upgrade

After an accepted upgrade, the events a client hands over are a prefix of decoding the frame bytes
in one call, with one pong per ping and at most one close written
(`upgraded_client_follows_the_one_call_decoding`); the invariant is `Session`, kept by every use
(`Session.uses`).
-/
namespace Switchboard.Net.Replay

@[simp] theorem pending_close (r : Replay) : r.close.pending = r.pending := rfl

@[simp] theorem written_close (r : Replay) : r.close.written = r.written := rfl



theorem streaming_close {r : Replay} (streaming : r.Streaming) : r.close.Streaming := streaming

theorem unlimited_close {r : Replay} (unlimited : r.Unlimited) : r.close.Unlimited :=
  ⟨unlimited.writeMax, unlimited.writeBudget⟩

theorem streaming_of_pieces {r : Replay} {pieces : List (List UInt8)} (cut : ∀ p ∈ pieces, p ≠ [])
    (script : r.cues = pieces.map (Cue.data · false)) : r.Streaming := by
  intro c mem
  rw [script, List.mem_map] at mem
  obtain ⟨p, piece, rfl⟩ := mem
  exact ⟨p, cut p piece, rfl⟩

theorem pending_of_pieces {r : Replay} {pieces : List (List UInt8)}
    (script : r.cues = pieces.map (Cue.data · false)) : r.pending = pieces.flatten := by
  rw [pending, script, List.flatMap_map]
  simp [Cue.bytes, List.flatMap_id']

end Switchboard.Net.Replay

namespace Switchboard.Http.Response

theorem whole_setHeaders (response : Response) {status : Nat} (fits : status < 65536)
    {hs : List (String × String)} (plain : ∀ x ∈ hs, PlainHeader x) :
    Whole (((response.setBegin status).setHeaders hs).setBody []).raw := by
  have composing := (composing_setBeginWith response status http11).setHeaders hs
  rw [List.nil_append] at composing
  have composed : Composed (((response.setBegin status).setHeaders hs).setBody []) status http11
      (Command.setHeaders hs) [] := composing.setBody []
  obtain ⟨cookies, lines⟩ := parseHeaderLines_setHeaders plain (statusText status http11 ++ [13, 10])
  simp only [List.length_append, List.length_cons, List.length_nil] at lines
  obtain ⟨t, found, ends, given, once⟩ := composed.readsBack_of_lines (by decide) fits
    (readable_setHeaders (fun x mem => ⟨(plain x mem).1, (plain x mem).2.1⟩) 0) lines
  refine ⟨once.complete, Or.inl given, t, found, ?_⟩
  rw [once.bodyLength]
  exact ends

end Switchboard.Http.Response

namespace Switchboard.WebSocket

namespace Engine

/-- The engine with its handshake flag, nonce and generator set: the fields that receiving neither
reads nor changes. -/
def withSide (e : Engine) (handshaked : Bool) (key : String) (entropy : Entropy) : Engine :=
  { e with handshaked, key, entropy }

variable (h : Bool) (k : String) (g : Entropy) (e : Engine)

@[simp] theorem frame_withSide : (e.withSide h k g).frame = e.frame := rfl
@[simp] theorem maxMessageSize_withSide : (e.withSide h k g).maxMessageSize = e.maxMessageSize := rfl
@[simp] theorem handshaked_withSide : (e.withSide h k g).handshaked = h := rfl

theorem settle_withSide : (e.withSide h k g).settle = e.settle.withSide h k g := by
  cases received : e.frameReceived <;> cases final : e.finalReceived <;>
    simp [settle, withSide, received, final, resetFrame]

theorem deliver_withSide (first : UInt8) (payload : List UInt8) :
    (e.withSide h k g).deliver first payload =
      ((e.deliver first payload).1, (e.deliver first payload).2.withSide h k g) := by
  unfold deliver withSide
  dsimp only
  split
  · rfl
  · rfl
  · split <;> rfl
  · split_ifs <;> rfl
  · rfl

@[simp] theorem messageSize_withSide (first : UInt8) (length : Nat) :
    (e.withSide h k g).messageSize first length = e.messageSize first length := rfl

theorem ready_withSide {e : Engine} (ready : e.Ready) : (e.withSide h k g).Ready := ready

theorem completeFrame_withSide (first : UInt8) (headerSize : Nat) (mask : Mask) :
    (e.withSide h k g).completeFrame first headerSize mask =
      ((e.completeFrame first headerSize mask).1, (e.completeFrame first headerSize mask).2.withSide h k g) :=
  deliver_withSide h k g e first _

theorem takeFrame_withSide (frame : List UInt8) :
    ({ e.withSide h k g with frame, frameReceived := true } : Engine) =
      ({ e with frame, frameReceived := true } : Engine).withSide h k g := rfl

theorem gather_withSide (s : List UInt8)
    (more : ∀ n : Engine, n.frameReceived = true → ∀ rest : List UInt8, rest.length < s.length →
      (n.withSide h k g).receive rest = ((n.receive rest).1, (n.receive rest).2.withSide h k g)) :
    (e.withSide h k g).gather s = ((e.gather s).1, (e.gather s).2.withSide h k g) := by
  unfold gather
  split
  · rename_i first second header
    simp only [maxMessageSize_withSide, messageSize_withSide]
    by_cases short : (first :: second :: header).length < headerSize second
    · simp only [short, if_true]
      rfl
    by_cases addressable : wordMax < payloadLength second header + headerSize second
    · simp only [short, addressable, if_true, if_false]
      rfl
    by_cases limit : e.maxMessageSize < e.messageSize first (payloadLength second header)
    · simp only [short, addressable, limit, if_true, if_false]
      rfl
    by_cases waiting : (first :: second :: header).length < payloadLength second header + headerSize second
    · simp only [short, addressable, limit, waiting, if_true, if_false]
      rfl
    · simp only [short, addressable, limit, waiting, if_false]
      have two := two_add_extendedSize_le second
      have shorter : ((first :: second :: header).drop (payloadLength second header + headerSize second)).length <
          (first :: second :: header).length := by
        simp only [List.length_drop, List.length_cons]
        omega
      erw [takeFrame_withSide, completeFrame_withSide, more _ (frameReceived_deliver _ _ _) _ shorter]
  · rfl

theorem receive_withSide {e : Engine} (ready : e.Ready) (d : List UInt8) :
    (e.withSide h k g).receive d = ((e.receive d).1, (e.receive d).2.withSide h k g) := by
  by_cases empty : d = []
  · subst empty
    rw [receive_nil, receive_nil]
  rw [receive_eq_settle ready empty, receive_eq_settle (ready_withSide h k g ready) empty, settle_withSide,
    frame_withSide]
  apply gather_withSide
  intro n received rest shorter
  exact receive_withSide (Or.inl received) rest
termination_by (e.settle.frame ++ d).length
decreasing_by
  rw [frame_settle_of_received received, List.nil_append]
  exact shorter

theorem handshaked_receive {e : Engine} (ready : e.Ready) (d : List UInt8) :
    (e.receive d).2.handshaked = e.handshaked := by
  have same := receive_withSide e.handshaked e.key e.entropy ready d
  rw [show e.withSide e.handshaked e.key e.entropy = e from rfl] at same
  rw [same, handshaked_withSide]

theorem receive_append_of_harmless {e : Engine} (ready : e.Ready) (a b : List UInt8)
    (harmless : ∀ x ∈ (e.receive (a ++ b)).1, ¬ x.IsFatal) :
    e.receive (a ++ b) = ((e.receive a).1 ++ ((e.receive a).2.receive b).1, ((e.receive a).2.receive b).2) := by
  rcases receive_append ready a b with ⟨same, pre, ev, events, fatal, -⟩ | ⟨same, -⟩
  · -- a fatal error in the prefix would stand in the whole decoding
    have stands : ev ∈ (e.receive (a ++ b)).1 := by simp [same, events]
    exact absurd fatal (harmless ev stands)
  · exact same

theorem harmless_of_append {e : Engine} (ready : e.Ready) {a b : List UInt8}
    (harmless : ∀ x ∈ (e.receive (a ++ b)).1, ¬ x.IsFatal) : ∀ x ∈ (e.receive a).1, ¬ x.IsFatal := by
  intro x mem
  apply harmless x
  rw [receive_append_of_harmless ready a b harmless]
  exact List.mem_append_left _ mem

end Engine

/-! ## What the client writes -/

/-- A frame the client writes, final and masked: its opcode, payload and close status. -/
structure Sent where
  opcode : Opcode
  payload : List UInt8
  status : Nat
  deriving DecidableEq

/-- Bytes that are the given frames one after another, each final and masked with some key. -/
inductive Masked : List Sent → List UInt8 → Prop
  | nil : Masked [] []
  | cons {frames : List Sent} {bytes : List UInt8} (f : Sent) (key : Mask) :
      Masked frames bytes → Masked (f :: frames) (encodeFrame f.opcode true (some key) f.payload f.status ++ bytes)

theorem Masked.single (f : Sent) (key : Mask) :
    Masked [f] (encodeFrame f.opcode true (some key) f.payload f.status) := by
  simpa using Masked.cons f key Masked.nil

theorem Masked.append {fs fs' : List Sent} {w w' : List UInt8} (first : Masked fs w) (second : Masked fs' w') :
    Masked (fs ++ fs') (w ++ w') := by
  induction first with
  | nil => simpa using second
  | cons f key _ ih => simpa using Masked.cons f key ih

/-- What a receive writes for the events it hands over: a pong for each ping, in order, then a close
answering the first close received, with 1000 for a status of 0, unless a close was sent before. -/
def replies (closeSent : Bool) (events : List Event) : List Sent :=
  (events.filterMap Event.pinged).map (fun d => ⟨.pong, d, 0⟩) ++
    match events.findSome? Event.closing with
    | some status => if closeSent then [] else [⟨.close, [], if status = 0 then closeNormal else status⟩]
    | none => []

def throughClose : List Event → List Event
  | [] => []
  | ev :: evs => if ev.closing.isSome then [ev] else ev :: throughClose evs

theorem throughClose_isPrefix (evs : List Event) : throughClose evs <+: evs := by
  induction evs with
  | nil => exact List.prefix_refl _
  | cons ev evs ih =>
    unfold throughClose
    split
    · exact ⟨evs, rfl⟩
    · exact List.cons_prefix_cons.2 ⟨rfl, ih⟩

theorem throughClose_isPrefix_of_closing {p evs : List Event} (pre : p <+: evs)
    (closes : ∃ x ∈ p, x.closing.isSome) : throughClose evs <+: p := by
  induction evs generalizing p with
  | nil => simp_all
  | cons ev evs ih =>
    obtain ⟨x, mem, closing⟩ := closes
    cases p with
    | nil => cases mem
    | cons y p =>
      obtain ⟨rfl, rest⟩ := List.cons_prefix_cons.1 pre
      unfold throughClose
      split
      · exact ⟨p, rfl⟩
      · rename_i quiet
        rcases List.mem_cons.1 mem with rfl | mem
        · exact absurd closing quiet
        · exact List.cons_prefix_cons.2 ⟨rfl, ih rest ⟨x, mem, closing⟩⟩

/-! ## The client's steps over a connection that takes every write -/

namespace WsClient

def wrote (c : WsClient) (g : Entropy) (w : List UInt8) : WsClient :=
  { c with engine := { c.engine with entropy := g },
           http := { c.http with conn := { c.http.conn with written := c.http.conn.written ++ w } } }

section Wrote

variable (c : WsClient) (g : Entropy) (w : List UInt8)

@[simp] theorem backlog_wrote : (c.wrote g w).backlog = c.backlog := rfl
@[simp] theorem closeSent_wrote : (c.wrote g w).closeSent = c.closeSent := rfl
@[simp] theorem closed_wrote : (c.wrote g w).closed = c.closed := rfl
@[simp] theorem handshaked_wrote : (c.wrote g w).engine.handshaked = c.engine.handshaked := rfl
@[simp] theorem written_wrote : (c.wrote g w).http.conn.written = c.http.conn.written ++ w := rfl
@[simp] theorem pending_wrote : (c.wrote g w).http.conn.pending = c.http.conn.pending := rfl

theorem unlimited_wrote (unlimited : c.http.conn.Unlimited) : (c.wrote g w).http.conn.Unlimited :=
  ⟨unlimited.writeMax, unlimited.writeBudget⟩

theorem wrote_wrote (g' : Entropy) (w' : List UInt8) : (c.wrote g w).wrote g' w' = c.wrote g' (w ++ w') := by
  simp [wrote]

end Wrote

end WsClient

namespace WsClient

open Net

variable {c : WsClient}

theorem sendFrame_open (shaken : c.engine.handshaked = true) (opened : c.closed = false)
    (unlimited : c.http.conn.Unlimited) (opcode : Opcode) (payload : List UInt8) (status : Nat) :
    ∃ key g, c.sendFrame opcode payload status = (.ok (), c.wrote g (encodeFrame opcode true (some key) payload status)) := by
  unfold sendFrame Engine.prepareSendFrame Http.HttpClient.send
  simp only [shaken, opened, Bool.not_true, Bool.false_eq_true, if_false, if_true]
  generalize c.engine.entropy.bytes 4 = drawn
  obtain ⟨key, g⟩ := drawn
  refine ⟨Mask.ofBytes key, g, ?_⟩
  simp [Replay.writeAll_of_unlimited unlimited, wrote, shaken, opened]

theorem pong_open (shaken : c.engine.handshaked = true) (opened : c.closed = false)
    (unlimited : c.http.conn.Unlimited) (pings : List (List UInt8)) :
    ∃ g w, c.pong pings = (.ok (), c.wrote g w) ∧ Masked (pings.map fun d => ⟨.pong, d, 0⟩) w := by
  induction pings generalizing c with
  | nil => exact ⟨c.engine.entropy, [], by simp [pong, wrote], Masked.nil⟩
  | cons d rest ih =>
    obtain ⟨key, g, sent⟩ := sendFrame_open shaken opened unlimited .pong d 0
    obtain ⟨g', w, rest_sent, masked⟩ :=
      ih (c := c.wrote g (encodeFrame .pong true (some key) d 0)) shaken opened (unlimited_wrote c g _ unlimited)
    refine ⟨g', _, ?_, Masked.cons ⟨.pong, d, 0⟩ key masked⟩
    simp only [pong, sent, rest_sent, wrote_wrote]

theorem close_of_closeSent (sent : c.closeSent = true) (status : Nat) : c.close status = (.ok (), c) := by
  simp [close, sent]

theorem sendFrame_closed (shaken : c.engine.handshaked = true) (closed : c.closed = true) (opcode : Opcode)
    (payload : List UInt8) (status : Nat) : c.sendFrame opcode payload status = (.error .closed, c) := by
  simp [sendFrame, shaken, closed]

theorem close_closed (shaken : c.engine.handshaked = true) (closed : c.closed = true) (unsent : c.closeSent = false)
    (status : Nat) : c.close status = (.error .closed, c) := by
  simp [close, unsent, sendFrame_closed shaken closed]

theorem receive_closed [Crypto] (shaken : c.engine.handshaked = true) (closed : c.closed = true) :
    c.receive = (.error .closed, [], c) := by
  simp [receive, shaken, closed]

theorem close_open (shaken : c.engine.handshaked = true) (opened : c.closed = false)
    (unlimited : c.http.conn.Unlimited) (unsent : c.closeSent = false) (status : Nat) :
    ∃ key g, c.close status =
      (.ok (), { c.wrote g (encodeFrame .close true (some key) [] status) with closeSent := true }) := by
  obtain ⟨key, g, sent⟩ := sendFrame_open shaken opened unlimited .close [] status
  exact ⟨key, g, by simp [close, unsent, sent]⟩

theorem takeData_pongs (ready : c.engine.Ready) (shaken : c.engine.handshaked = true)
    (opened : c.closed = false) (unlimited : c.http.conn.Unlimited) (data : List UInt8) :
    ∃ g w, ({ c with engine := (c.engine.receive data).2 } : WsClient).pong
        ((c.engine.receive data).1.filterMap Event.pinged) =
        (.ok (), ({ c with engine := (c.engine.receive data).2 } : WsClient).wrote g w) ∧
      Masked (((c.engine.receive data).1.filterMap Event.pinged).map fun d => ⟨.pong, d, 0⟩) w :=
  pong_open (c := { c with engine := (c.engine.receive data).2 })
    ((Engine.handshaked_receive ready data).trans shaken) opened unlimited _

theorem takeData_quiet (ready : c.engine.Ready) (shaken : c.engine.handshaked = true)
    (opened : c.closed = false) (unlimited : c.http.conn.Unlimited) {data : List UInt8}
    (quiet : (c.engine.receive data).1.findSome? Event.closing = none) :
    ∃ g w, Masked (replies c.closeSent (c.engine.receive data).1) w ∧
      c.takeData data = (.ok (), (c.engine.receive data).1,
        ({ c with engine := (c.engine.receive data).2 } : WsClient).wrote g w) := by
  obtain ⟨g, w, ponged, masked⟩ := takeData_pongs ready shaken opened unlimited data
  refine ⟨g, w, by simpa [replies, quiet] using masked, ?_⟩
  rcases received : c.engine.receive data with ⟨events, engine⟩
  rw [received] at ponged quiet
  simp only [takeData, received, ponged, quiet]

theorem takeData_of_closing {data : List UInt8} {status : Nat} {c₃ c₄ : WsClient}
    (ponged : ({ c with engine := (c.engine.receive data).2 } : WsClient).pong
      ((c.engine.receive data).1.filterMap Event.pinged) = (.ok (), c₃))
    (closing : (c.engine.receive data).1.findSome? Event.closing = some status)
    (answered : (if c₃.closeSent then (.ok (), c₃) else c₃.close (if status == 0 then closeNormal else status)) =
      (.ok (), c₄)) :
    c.takeData data = (.ok (), (c.engine.receive data).1, { c₄ with closed := true, http := c₄.http.close }) := by
  rcases received : c.engine.receive data with ⟨events, engine⟩
  rw [received] at ponged closing
  dsimp only at ponged closing
  unfold takeData
  rw [received]
  dsimp only
  rw [ponged]
  dsimp only
  rw [closing]
  dsimp only
  rw [answered]

theorem takeData_closing (ready : c.engine.Ready) (shaken : c.engine.handshaked = true)
    (opened : c.closed = false) (unlimited : c.http.conn.Unlimited) {data : List UInt8} {status : Nat}
    (closing : (c.engine.receive data).1.findSome? Event.closing = some status) :
    ∃ g w, Masked (replies c.closeSent (c.engine.receive data).1) w ∧
      c.takeData data = (.ok (), (c.engine.receive data).1,
        { ({ c with engine := (c.engine.receive data).2 } : WsClient).wrote g w with
            closeSent := true, closed := true,
            http := (({ c with engine := (c.engine.receive data).2 } : WsClient).wrote g w).http.close }) := by
  obtain ⟨g, w, ponged, masked⟩ := takeData_pongs ready shaken opened unlimited data
  have shaken' : (c.engine.receive data).2.handshaked = true := (Engine.handshaked_receive ready data).trans shaken
  cases sent : c.closeSent
  · -- the close received is answered, with 1000 for a status of 0
    obtain ⟨key, g', answered⟩ := close_open (c := ({ c with engine := (c.engine.receive data).2 } : WsClient).wrote g w)
      shaken' opened (unlimited_wrote _ _ _ unlimited) (by simp [sent]) (if status == 0 then closeNormal else status)
    refine ⟨g', w ++ encodeFrame .close true (some key) [] (if status == 0 then closeNormal else status), ?_, ?_⟩
    · simpa [replies, closing] using masked.append (Masked.single ⟨.close, [], if status = 0 then closeNormal else status⟩ key)
    · rw [takeData_of_closing ponged closing (by rw [if_neg]; exacts [answered, by simp [sent]])]
      simp [wrote_wrote, sent]
  · refine ⟨g, w, by simpa [replies, closing] using masked, ?_⟩
    rw [takeData_of_closing ponged closing (by rw [if_pos]; simp [sent])]
    simp [sent]

theorem nextData_of_streaming [Crypto] (streaming : c.http.conn.Streaming) :
    (c.backlog ≠ [] ∧ c.nextData = (.ok c.backlog, { c with backlog := [] })) ∨
    (c.backlog = [] ∧ c.http.conn.pending = [] ∧ ∃ cues : List Cue,
      ({ c.http.conn with cues } : Replay).pending = [] ∧ ({ c.http.conn with cues } : Replay).Streaming ∧
      c.nextData = (.error .closed, { c with http := { c.http with conn := { c.http.conn with cues } }, closed := true })) ∨
    (c.backlog = [] ∧ ∃ (data : List UInt8) (cues : List Cue), data ≠ [] ∧
      c.http.conn.pending = data ++ ({ c.http.conn with cues } : Replay).pending ∧
      ({ c.http.conn with cues } : Replay).Streaming ∧
      c.nextData = (.ok data, { c with http := { c.http with conn := { c.http.conn with cues } } })) := by
  cases backlog : c.backlog with
  | cons b bs =>
    left
    exact ⟨List.cons_ne_nil b bs, by simp [nextData, backlog]⟩
  | nil =>
    right
    obtain ⟨n, cues, -, progress, read, rest, streaming'⟩ :=
      Replay.read_of_streaming streaming frameReadChunk (by decide)
    by_cases drained : c.http.conn.pending = []
    · left
      rw [drained, List.take_nil] at read
      rw [drained, List.drop_nil] at rest
      exact ⟨rfl, drained, cues, rest, streaming', by simp [nextData, backlog, read]⟩
    · right
      have taken : 0 < (c.http.conn.pending.take n).length := by
        simp only [List.length_take]
        have := progress drained
        have := List.length_pos_of_ne_nil drained
        omega
      obtain ⟨d, ds, first⟩ := List.exists_cons_of_length_pos taken
      refine ⟨rfl, d :: ds, cues, List.cons_ne_nil d ds, ?_, streaming', ?_⟩
      · rw [rest, ← first, List.take_append_drop]
      · simp [nextData, backlog, read, first]

end WsClient

/-! ## A session after the upgrade -/

theorem replies_countP_quiet {events : List Event} (quiet : events.findSome? Event.closing = none) (sent : Bool) :
    (replies sent events).countP (·.opcode == .close) = 0 := by
  simp [replies, quiet, List.countP_map]

theorem replies_countP_closing {events : List Event} {status : Nat}
    (closing : events.findSome? Event.closing = some status) (sent : Bool) :
    (replies sent events).countP (·.opcode == .close) = if sent then 0 else 1 := by
  cases sent <;> simp [replies, closing, List.countP_map]

theorem closing_of_findSome? {events : List Event} {status : Nat}
    (closing : events.findSome? Event.closing = some status) : ∃ x ∈ events, x.closing.isSome := by
  obtain ⟨x, mem, found⟩ := List.exists_of_findSome?_eq_some closing
  exact ⟨x, mem, by simp [found]⟩

theorem not_closing_of_findSome? {events : List Event} (quiet : events.findSome? Event.closing = none) :
    ¬ ∃ x ∈ events, x.closing.isSome := by
  rintro ⟨x, mem, closes⟩
  rw [List.findSome?_eq_none_iff] at quiet
  simp [quiet x mem] at closes

/-- A frame a program sends of its own accord. -/
inductive Kind where
  | text
  | binary
  | ping
  deriving DecidableEq

def Kind.opcode : Kind → Opcode
  | .text => .text
  | .binary => .binary
  | .ping => .ping

theorem Kind.opcode_ne_close (kind : Kind) : kind.opcode ≠ .close := by
  cases kind <;> decide

/-- What a program does with a connected client. -/
inductive Use where
  | send (kind : Kind) (payload : List UInt8)
  | close (status : Nat)
  | receive
  deriving DecidableEq

def Use.apply [Crypto] : Use → WsClient → (Except WsError Unit × List Event) × WsClient
  | .send kind payload, c => (((c.sendFrame kind.opcode payload 0).1, []), (c.sendFrame kind.opcode payload 0).2)
  | .close status, c => (((c.close status).1, []), (c.close status).2)
  | .receive, c => ((c.receive.1, c.receive.2.1), c.receive.2.2)

def WsClient.uses [Crypto] (c : WsClient) : List Use → List (Except WsError Unit × List Event) × WsClient
  | [] => ([], c)
  | u :: us => ((u.apply c).1 :: ((u.apply c).2.uses us).1, ((u.apply c).2.uses us).2)

theorem WsClient.uses_closed [Crypto] {c : WsClient} (shaken : c.engine.handshaked = true) (closed : c.closed = true)
    (us : List Use) : (c.uses us).2 = c ∧ (c.uses us).1.flatMap Prod.snd = [] := by
  induction us with
  | nil => exact ⟨rfl, rfl⟩
  | cons u us ih =>
    have still : (u.apply c).1.2 = [] ∧ (u.apply c).2 = c := by
      cases u with
      | send kind payload => simp [Use.apply, WsClient.sendFrame_closed shaken closed]
      | close status =>
        cases sent : c.closeSent
        · simp [Use.apply, WsClient.close_closed shaken closed sent]
        · simp [Use.apply, WsClient.close_of_closeSent sent]
      | receive => simp [Use.apply, WsClient.receive_closed shaken closed]
    simp only [WsClient.uses, List.flatMap_cons, still.1, still.2, ih.1, ih.2, List.nil_append, and_self]

/-- What holds of a client after the upgrade, while the server's bytes after its answer are `F`:
the bytes decoded so far are a prefix `consumed` of `F` and the rest waits in the backlog and the
stream; the events handed over are those of decoding that prefix at once; since the upgrade the
client wrote the frames `frames`, with a close exactly when it sent one; a received close closed
it, and nothing else did but the end of the stream; and each receive while open decoded at least
one byte. -/
structure Session (F : List UInt8) (M : Nat) (W : List UInt8) (c : WsClient) (consumed : List UInt8)
    (delivered : List Event) (frames : List Sent) (receives : Nat) : Prop where
  stream : consumed ++ c.backlog ++ c.http.conn.pending = F
  streaming : c.http.conn.Streaming
  unlimited : c.http.conn.Unlimited
  engine : ∃ key g, c.engine = ((Engine.fresh true M).receive consumed).2.withSide true key g
  events : delivered = ((Engine.fresh true M).receive consumed).1
  written : ∃ w, c.http.conn.written = W ++ w ∧ Masked frames w
  closes : frames.countP (·.opcode == .close) = if c.closeSent then 1 else 0
  answered : (∃ x ∈ delivered, x.closing.isSome) → c.closed = true ∧ c.closeSent = true
  ended : c.closed = true → (∃ x ∈ delivered, x.closing.isSome) ∨ consumed = F
  pace : c.closed = false → receives ≤ consumed.length

namespace Session

variable {F : List UInt8} {M : Nat} {W : List UInt8} {c : WsClient} {consumed : List UInt8}
  {delivered : List Event} {frames : List Sent} {receives : Nat}

theorem shaken (s : Session F M W c consumed delivered frames receives) : c.engine.handshaked = true := by
  obtain ⟨key, g, engine⟩ := s.engine
  rw [engine, Engine.handshaked_withSide]

theorem ready (s : Session F M W c consumed delivered frames receives) : c.engine.Ready := by
  obtain ⟨key, g, engine⟩ := s.engine
  rw [engine]
  exact Engine.ready_withSide _ _ _ (Engine.ready_receive (Engine.ready_fresh true M) consumed)

theorem quiet (s : Session F M W c consumed delivered frames receives) (opened : c.closed = false) :
    ¬ ∃ x ∈ delivered, x.closing.isSome := fun closes => by
  simp [(s.answered closes).1] at opened

theorem tick (s : Session F M W c consumed delivered frames receives) (closed : c.closed = true) (n : Nat) :
    Session F M W c consumed delivered frames (receives + n) :=
  { s with pace := fun opened => absurd (closed.symm.trans opened) Bool.noConfusion }

theorem wrote (s : Session F M W c consumed delivered frames receives) (opened : c.closed = false) (g : Entropy)
    {w : List UInt8} {sent : List Sent} (masked : Masked sent w) (flag : Bool)
    (count : (frames ++ sent).countP (·.opcode == .close) = if flag then 1 else 0) :
    Session F M W { c.wrote g w with closeSent := flag } consumed delivered (frames ++ sent) receives := by
  obtain ⟨key, g₀, engine⟩ := s.engine
  obtain ⟨w₀, written, masked₀⟩ := s.written
  refine ⟨by simpa using s.stream, s.streaming, WsClient.unlimited_wrote c g w s.unlimited, ⟨key, g, ?_⟩, s.events,
    ⟨w₀ ++ w, by simp [written], masked₀.append masked⟩, count, fun closes => absurd closes (s.quiet opened),
    fun closed => by simp [opened] at closed, fun _ => s.pace opened⟩
  simp [WsClient.wrote, engine, Engine.withSide]

theorem send (s : Session F M W c consumed delivered frames receives) (kind : Kind) (payload : List UInt8) :
    ∃ frames', Session F M W (c.sendFrame kind.opcode payload 0).2 consumed delivered frames' receives := by
  cases opened : c.closed
  · obtain ⟨key, g, sent⟩ := WsClient.sendFrame_open s.shaken opened s.unlimited kind.opcode payload 0
    rw [sent]
    refine ⟨_, s.wrote opened g (Masked.single ⟨kind.opcode, payload, 0⟩ key) c.closeSent ?_⟩
    simpa [List.countP_append, kind.opcode_ne_close] using s.closes
  · rw [WsClient.sendFrame_closed s.shaken opened]
    exact ⟨frames, s⟩

theorem close (s : Session F M W c consumed delivered frames receives) (status : Nat) :
    ∃ frames', Session F M W (c.close status).2 consumed delivered frames' receives := by
  cases sent : c.closeSent
  · cases opened : c.closed
    · obtain ⟨key, g, closing⟩ := WsClient.close_open s.shaken opened s.unlimited sent status
      rw [closing]
      refine ⟨_, s.wrote opened g (Masked.single ⟨.close, [], status⟩ key) true ?_⟩
      have none : frames.countP (·.opcode == .close) = 0 := by simpa [sent] using s.closes
      simp [List.countP_append, none]
    · rw [WsClient.close_closed s.shaken opened sent]
      exact ⟨frames, s⟩
  · rw [WsClient.close_of_closeSent sent]
    exact ⟨frames, s⟩

theorem take (s : Session F M W c consumed delivered frames receives) (opened : c.closed = false)
    (harmless : ∀ x ∈ ((Engine.fresh true M).receive F).1, ¬ x.IsFatal) (c₂ : WsClient) {data : List UInt8}
    (nonempty : data ≠ []) (stream : consumed ++ data ++ c₂.backlog ++ c₂.http.conn.pending = F)
    (streaming : c₂.http.conn.Streaming) (unlimited : c₂.http.conn.Unlimited) (engine : c₂.engine = c.engine)
    (written : c₂.http.conn.written = c.http.conn.written) (sent : c₂.closeSent = c.closeSent)
    (opened₂ : c₂.closed = false) :
    (∃ w, (c₂.takeData data).2.2.http.conn.written = c₂.http.conn.written ++ w ∧
      Masked (replies c₂.closeSent (c₂.takeData data).2.1) w) ∧
    ∃ frames', Session F M W (c₂.takeData data).2.2 (consumed ++ data) (delivered ++ (c₂.takeData data).2.1)
      frames' (receives + 1) := by
  obtain ⟨key, g₀, held⟩ := s.engine
  obtain ⟨w₀, written₀, masked₀⟩ := s.written
  have ready₀ := Engine.ready_receive (Engine.ready_fresh true M) consumed
  -- the bytes decode after the prefix as they would in one call
  have decoded : c₂.engine.receive data =
      ((((Engine.fresh true M).receive consumed).2.receive data).1,
        (((Engine.fresh true M).receive consumed).2.receive data).2.withSide true key g₀) := by
    rw [engine, held]
    exact Engine.receive_withSide true key g₀ ready₀ data
  have rest : consumed ++ data ++ (c₂.backlog ++ c₂.http.conn.pending) = F := by
    rw [← stream, List.append_assoc _ c₂.backlog]
  have whole := Engine.receive_append_of_harmless (Engine.ready_fresh true M) consumed data
    (Engine.harmless_of_append (Engine.ready_fresh true M) (rest ▸ harmless))
  have decodes : delivered ++ (c₂.engine.receive data).1 = ((Engine.fresh true M).receive (consumed ++ data)).1 := by
    simp [s.events, whole, decoded]
  have leaves : ∀ g, ({ (c₂.engine.receive data).2 with entropy := g } : Engine) =
      ((Engine.fresh true M).receive (consumed ++ data)).2.withSide true key g := by
    simp [decoded, whole, Engine.withSide]
  have shaken₂ : c₂.engine.handshaked = true := engine ▸ s.shaken
  have ready₂ : c₂.engine.Ready := engine ▸ s.ready
  have paced : receives + 1 ≤ (consumed ++ data).length := by
    have := s.pace opened
    have := List.length_pos_of_ne_nil nonempty
    simp only [List.length_append]
    omega
  cases closing : (c₂.engine.receive data).1.findSome? Event.closing with
  | none =>
    obtain ⟨g, w, masked, took⟩ := WsClient.takeData_quiet ready₂ shaken₂ opened₂ unlimited closing
    rw [took]
    refine ⟨⟨w, rfl, masked⟩, frames ++ replies c₂.closeSent (c₂.engine.receive data).1, ?_⟩
    refine ⟨by simpa using stream, streaming, WsClient.unlimited_wrote _ g w unlimited, ⟨key, g, ?_⟩, ?_,
      ⟨w₀ ++ w, by simp [written, written₀], masked₀.append masked⟩, ?_, ?_, ?_, fun _ => paced⟩
    · exact leaves g
    · exact decodes
    · rw [List.countP_append, replies_countP_quiet closing, Nat.add_zero, WsClient.closeSent_wrote, sent]
      exact s.closes
    · rintro ⟨x, mem, closes⟩
      rcases List.mem_append.1 mem with before | now
      · exact absurd ⟨x, before, closes⟩ (s.quiet opened)
      · exact absurd ⟨x, now, closes⟩ (not_closing_of_findSome? closing)
    · intro closed
      simp [opened₂] at closed
  | some status =>
    obtain ⟨g, w, masked, took⟩ := WsClient.takeData_closing ready₂ shaken₂ opened₂ unlimited closing
    rw [took]
    refine ⟨⟨w, rfl, masked⟩, frames ++ replies c₂.closeSent (c₂.engine.receive data).1, ?_⟩
    have closes := closing_of_findSome? closing
    refine ⟨by simpa [Http.HttpClient.close] using stream, Net.Replay.streaming_close streaming,
      Net.Replay.unlimited_close (WsClient.unlimited_wrote _ g w unlimited), ⟨key, g, ?_⟩, ?_,
      ⟨w₀ ++ w, by simp [Http.HttpClient.close, written, written₀], masked₀.append masked⟩,
      ?_, fun _ => ⟨rfl, rfl⟩, fun _ => Or.inl ?_, fun closed => by simp at closed⟩
    · exact leaves g
    · exact decodes
    · rw [List.countP_append, replies_countP_closing closing]
      cases sent₂ : c₂.closeSent
      · have none : frames.countP (·.opcode == .close) = 0 := by simpa [← sent, sent₂] using s.closes
        simp [none]
      · simpa [← sent, sent₂] using s.closes
    · obtain ⟨x, mem, closes⟩ := closes
      exact ⟨x, List.mem_append_right _ (by simpa [decoded] using mem), closes⟩

theorem receive [Crypto] (s : Session F M W c consumed delivered frames receives)
    (harmless : ∀ x ∈ ((Engine.fresh true M).receive F).1, ¬ x.IsFatal) :
    (∃ w, c.receive.2.2.http.conn.written = c.http.conn.written ++ w ∧
      Masked (replies c.closeSent c.receive.2.1) w) ∧
    ∃ consumed' frames', Session F M W c.receive.2.2 consumed' (delivered ++ c.receive.2.1) frames' (receives + 1) := by
  have shaken := s.shaken
  cases opened : c.closed
  · rcases WsClient.nextData_of_streaming s.streaming with ⟨nonempty, next⟩ |
      ⟨empty, drained, cues, pending, streaming, next⟩ | ⟨empty, data, cues, nonempty, split, streaming, next⟩
    · -- the bytes that came with the upgrade answer are decoded first
      have received : c.receive = ({ c with backlog := [] } : WsClient).takeData c.backlog := by
        simp [WsClient.receive, shaken, opened, next]
      rw [received]
      obtain ⟨replied, frames', s'⟩ := s.take opened harmless { c with backlog := [] } nonempty
        (by simpa using s.stream) s.streaming s.unlimited rfl rfl rfl opened
      exact ⟨replied, _, _, s'⟩
    · -- the stream is over, and the client closes
      have received : c.receive =
          (.error .closed, [], { c with http := { c.http with conn := { c.http.conn with cues } }, closed := true }) := by
        simp [WsClient.receive, shaken, opened, next]
      rw [received]
      have whole : consumed = F := by simpa [empty, drained] using s.stream
      refine ⟨⟨[], by simp, by simpa [replies] using Masked.nil⟩, consumed, frames,
        by simpa [empty, pending] using whole, streaming, ⟨s.unlimited.writeMax, s.unlimited.writeBudget⟩, s.engine,
        by simpa using s.events, s.written, s.closes, fun closes => absurd (by simpa using closes) (s.quiet opened),
        fun _ => Or.inr whole, fun closed => by simp at closed⟩
    · -- one read brings the next bytes of the stream
      have received : c.receive =
          ({ c with http := { c.http with conn := { c.http.conn with cues } } } : WsClient).takeData data := by
        simp [WsClient.receive, shaken, opened, next]
      rw [received]
      have stream : consumed ++ data ++ [] ++ ({ c.http.conn with cues } : Net.Replay).pending = F := by
        rw [← s.stream, empty, split]
        simp
      obtain ⟨replied, frames', s'⟩ := s.take opened harmless
        { c with http := { c.http with conn := { c.http.conn with cues } } } nonempty (by simpa [empty] using stream)
        streaming ⟨s.unlimited.writeMax, s.unlimited.writeBudget⟩ rfl rfl rfl opened
      exact ⟨replied, _, _, s'⟩
  · rw [WsClient.receive_closed shaken opened]
    exact ⟨⟨[], by simp, by simpa [replies] using Masked.nil⟩, consumed, frames, by simpa using s.tick opened 1⟩

/-- Each use keeps the session; a receive counts one more. -/
theorem apply [Crypto] (s : Session F M W c consumed delivered frames receives)
    (harmless : ∀ x ∈ ((Engine.fresh true M).receive F).1, ¬ x.IsFatal) (u : Use) :
    ∃ consumed' frames', Session F M W (u.apply c).2 consumed' (delivered ++ (u.apply c).1.2) frames'
      (receives + if u = .receive then 1 else 0) := by
  cases u with
  | send kind payload =>
    obtain ⟨frames', s'⟩ := s.send kind payload
    exact ⟨consumed, frames', by simpa [Use.apply] using s'⟩
  | close status =>
    obtain ⟨frames', s'⟩ := s.close status
    exact ⟨consumed, frames', by simpa [Use.apply] using s'⟩
  | receive => simpa [Use.apply] using (s.receive harmless).2

/-- Every run of uses keeps the session, with the events handed over along the way. -/
theorem uses [Crypto] (s : Session F M W c consumed delivered frames receives)
    (harmless : ∀ x ∈ ((Engine.fresh true M).receive F).1, ¬ x.IsFatal) (us : List Use) :
    ∃ consumed' frames', Session F M W (c.uses us).2 consumed' (delivered ++ (c.uses us).1.flatMap Prod.snd)
      frames' (receives + us.count .receive) := by
  induction us generalizing c consumed delivered frames receives with
  | nil => exact ⟨consumed, frames, by simpa [WsClient.uses] using s⟩
  | cons u us ih =>
    obtain ⟨consumed', frames', s'⟩ := s.apply harmless u
    obtain ⟨consumed'', frames'', s''⟩ := ih s'
    refine ⟨consumed'', frames'', ?_⟩
    have count : receives + (if u = .receive then 1 else 0) + us.count .receive =
        receives + (u :: us).count .receive := by
      by_cases receiving : u = .receive
      · simp [receiving]
        omega
      · simp [receiving]
    simpa [WsClient.uses, count] using s''

theorem handed_isPrefix (s : Session F M W c consumed delivered frames receives)
    (harmless : ∀ x ∈ ((Engine.fresh true M).receive F).1, ¬ x.IsFatal) :
    delivered <+: ((Engine.fresh true M).receive F).1 := by
  have rest : consumed ++ (c.backlog ++ c.http.conn.pending) = F := by rw [← s.stream, List.append_assoc]
  rw [← rest] at harmless ⊢
  rw [Engine.receive_append_of_harmless (Engine.ready_fresh true M) consumed _ harmless, s.events]
  exact List.prefix_append _ _

theorem complete (s : Session F M W c consumed delivered frames receives)
    (harmless : ∀ x ∈ ((Engine.fresh true M).receive F).1, ¬ x.IsFatal) (many : F.length < receives) :
    throughClose ((Engine.fresh true M).receive F).1 <+: delivered := by
  -- an open client decoded a byte per receive, so it is closed: by a close, or by the end of the stream
  have closed : c.closed = true := by
    cases opened : c.closed
    · have paced := s.pace opened
      have bounded : consumed.length ≤ F.length := by
        rw [← s.stream]
        simp only [List.length_append]
        omega
      omega
    · rfl
  rcases s.ended closed with closes | whole
  · exact throughClose_isPrefix_of_closing (s.handed_isPrefix harmless) closes
  · rw [s.events, whole]
    exact throughClose_isPrefix _

theorem closes_le (s : Session F M W c consumed delivered frames receives) :
    frames.countP (·.opcode == .close) ≤ 1 := by
  rw [s.closes]
  split <;> omega

theorem after_close [Crypto] (s : Session F M W c consumed delivered frames receives)
    (closes : ∃ x ∈ delivered, x.closing.isSome) :
    c.connected = false ∧ (∀ opcode payload status, c.sendFrame opcode payload status = (.error .closed, c)) ∧
      c.receive = (.error .closed, [], c) ∧ ∀ status, c.close status = (.ok (), c) := by
  obtain ⟨closed, sent⟩ := s.answered closes
  exact ⟨by simp [WsClient.connected, closed], WsClient.sendFrame_closed s.shaken closed,
    WsClient.receive_closed s.shaken closed, WsClient.close_of_closeSent sent⟩

end Session

/-! ## The upgrade starts a session -/

section

variable [Crypto]

namespace Engine

theorem clientUpgradeRequest_fst (e : Engine) (request : Http.Request) (host path : String) :
    ∃ key g, (e.clientUpgradeRequest request host path).1 = { e with key, entropy := g } := by
  unfold clientUpgradeRequest
  split
  rename_i key g _
  exact ⟨key, g, rfl⟩

theorem eq_of_clientUpgrade {e e' : Engine} {response : Http.Response} (accepted : e.clientUpgrade response = .ok e') :
    e' = { e with handshaked := true } := by
  unfold clientUpgrade at accepted
  dsimp only at accepted
  -- the other branches are errors, which `split_ifs` discards
  split_ifs at accepted
  cases accepted
  rfl

end Engine

theorem Session.start (c : WsClient) (host path : String) {M : Nat} {g : Entropy} {A F : List UInt8}
    (idle : c.engine = { Engine.fresh true M with entropy := g }) (streaming : c.http.conn.Streaming)
    (unlimited : c.http.conn.Unlimited) (stream : c.http.conn.pending = A ++ F) (whole : Http.Response.Whole A)
    {e : Engine}
    (accepted : (c.engine.clientUpgradeRequest {} host path).1.clientUpgrade (Http.Response.ofBytes A) = .ok e) :
    ∃ c₁, c.connect host path = (.ok (), c₁) ∧ c₁.connected = true ∧
      Session F M c₁.http.conn.written c₁ [] [] [] 0 := by
  obtain ⟨c₁, connected, engine, rest, streaming₁, unlimited₁, -, sent, closed⟩ :=
    WsClient.connect_of_stream c host path streaming unlimited stream whole accepted
  obtain ⟨key, g', request⟩ := Engine.clientUpgradeRequest_fst c.engine {} host path
  rw [request] at accepted
  have shaken : c₁.engine.handshaked = true := by
    rw [engine, Engine.eq_of_clientUpgrade accepted]
  refine ⟨c₁, connected, by simp [WsClient.connected, shaken, closed],
    ⟨by simpa using rest, streaming₁, unlimited₁, ⟨key, g', ?_⟩, by rw [Engine.receive_nil],
      ⟨[], by simp, Masked.nil⟩, by simp [sent], fun closes => by simp at closes,
      fun shut => by simp [closed] at shut, fun _ => Nat.zero_le _⟩⟩
  rw [engine, Engine.eq_of_clientUpgrade accepted, idle, Engine.receive_nil]
  rfl

/-- What a run of uses after the upgrade shows, for the server's frame bytes `F` and the events `D`
of decoding them in one call: the events handed over are a prefix of `D`, and hold everything
through its first close once there were more receives than `F` has bytes; since the upgrade the
client wrote masked frames with at most one close; the next receive writes a pong for each ping it
hands over, in order, and a close answering the first close unless one was sent; and after a close
was received the client is disconnected, sends and receives answer that it is closed, and closing
again writes nothing. -/
structure Conducts (F : List UInt8) (D : List Event) (c₁ : WsClient) (us : List Use) : Prop where
  handed : (c₁.uses us).1.flatMap Prod.snd <+: D
  complete : F.length < us.count .receive → throughClose D <+: (c₁.uses us).1.flatMap Prod.snd
  closesOnce : ∃ frames w, (c₁.uses us).2.http.conn.written = c₁.http.conn.written ++ w ∧ Masked frames w ∧
    frames.countP (·.opcode == .close) ≤ 1
  replied : ∃ w, (c₁.uses us).2.receive.2.2.http.conn.written = (c₁.uses us).2.http.conn.written ++ w ∧
    Masked (replies (c₁.uses us).2.closeSent (c₁.uses us).2.receive.2.1) w
  closed : (∃ x ∈ (c₁.uses us).1.flatMap Prod.snd, x.closing.isSome) →
    (c₁.uses us).2.connected = false ∧
    (∀ opcode payload status, (c₁.uses us).2.sendFrame opcode payload status = (.error .closed, (c₁.uses us).2)) ∧
    (c₁.uses us).2.receive = (.error .closed, [], (c₁.uses us).2) ∧
    ∀ status, (c₁.uses us).2.close status = (.ok (), (c₁.uses us).2)

theorem Session.conducts {F : List UInt8} {M : Nat} {c₁ : WsClient} (s : Session F M c₁.http.conn.written c₁ [] [] [] 0)
    (harmless : ∀ x ∈ ((Engine.fresh true M).receive F).1, ¬ x.IsFatal) (us : List Use) :
    Conducts F ((Engine.fresh true M).receive F).1 c₁ us := by
  obtain ⟨consumed, frames, run⟩ := s.uses harmless us
  rw [List.nil_append, Nat.zero_add] at run
  obtain ⟨w, written, masked⟩ := run.written
  exact ⟨run.handed_isPrefix harmless, run.complete harmless, ⟨frames, w, written, masked, run.closes_le⟩,
    (run.receive harmless).1, run.after_close⟩

def acceptAnswer (key : String) : List UInt8 :=
  (((({} : Http.Response).setBegin 101).setHeaders (acceptHeaders (acceptKey key))).setBody []).raw

theorem whole_acceptAnswer (lawful : Crypto.Lawful) (key : String) : Http.Response.Whole (acceptAnswer key) :=
  Http.Response.whole_setHeaders {} (by decide) (plainHeader_acceptHeaders lawful key)

theorem clientUpgrade_acceptAnswer (lawful : Crypto.Lawful) (e : Engine) :
    e.clientUpgrade (Http.Response.ofBytes (acceptAnswer e.key)) = .ok { e with handshaked := true } := by
  have alone : [acceptAnswer e.key].flatten =
      (((({} : Http.Response).setBegin 101).setHeaders (acceptHeaders (acceptKey e.key))).setBody []).raw := by
    simp [acceptAnswer]
  obtain ⟨-, status, headers, -⟩ :=
    Http.Response.setHeaders_readsBack {} (by decide) (plainHeader_acceptHeaders lawful e.key) alone
  rw [Http.Response.receiveChunks_singleton] at status headers
  rw [trimValue_acceptHeaders lawful] at headers
  exact Engine.clientUpgrade_of_acceptHeaders e status headers

/-- A client with a fresh engine, over a stream cut into any nonempty reads and a peer that takes
every write whole: when the stream is a whole answer that the upgrade accepts, followed by frame
bytes `F` whose decoding in one call meets no error that drops bytes, the client connects, and
every run of uses after that conducts itself against that one-call decoding. -/
theorem upgraded_client_follows_the_one_call_decoding (c : WsClient) (host path : String) (M : Nat)
    (g : Entropy) {pieces : List (List UInt8)} {A F : List UInt8}
    (idle : c.engine = { Engine.fresh true M with entropy := g }) (cut : ∀ p ∈ pieces, p ≠ [])
    (script : c.http.conn.cues = pieces.map (Net.Cue.data · false)) (unlimited : c.http.conn.Unlimited)
    (stream : pieces.flatten = A ++ F) (whole : Http.Response.Whole A)
    (accepted : ∃ e, (c.engine.clientUpgradeRequest {} host path).1.clientUpgrade (Http.Response.ofBytes A) = .ok e)
    (harmless : ∀ x ∈ ((Engine.fresh true M).receive F).1, ¬ x.IsFatal) :
    ∃ c₁, c.connect host path = (.ok (), c₁) ∧ c₁.connected = true ∧
      ∀ us, Conducts F ((Engine.fresh true M).receive F).1 c₁ us := by
  obtain ⟨e, accepted⟩ := accepted
  obtain ⟨c₁, connected, shaken, s⟩ := Session.start (F := F) c host path idle
    (Net.Replay.streaming_of_pieces cut script) unlimited ((Net.Replay.pending_of_pieces script).trans stream)
    whole accepted
  exact ⟨c₁, connected, shaken, s.conducts harmless⟩

end

section

attribute [local instance] Crypto.sample

/-- A client reading the accepting answer and then a ping, a text message and a close, the ping cut
across two reads. -/
theorem ping_message_and_close_after_the_accepting_answer :
    ∃ c₁, (WsClient.mk { conn := { cues := [.data (acceptAnswer
        ((Engine.fresh true 125).clientUpgradeRequest {} "localhost" "/").1.key ++ [0x89, 2]) false,
          .data [104, 105, 0x81, 2, 104, 105, 0x88, 2, 3, 232] false] } }
        (Engine.fresh true 125) [] false false).connect "localhost" "/" = (.ok (), c₁) ∧
      c₁.connected = true ∧
      ∀ us, Conducts [0x89, 2, 104, 105, 0x81, 2, 104, 105, 0x88, 2, 3, 232]
        ((Engine.fresh true 125).receive [0x89, 2, 104, 105, 0x81, 2, 104, 105, 0x88, 2, 3, 232]).1 c₁ us := by
  have decoded : ((Engine.fresh true 125).receive [0x89, 2, 104, 105, 0x81, 2, 104, 105, 0x88, 2, 3, 232]).1 =
      [.ping [104, 105], .message [104, 105], .close [] 1000] := by
    decide +kernel
  have stream : [acceptAnswer ((Engine.fresh true 125).clientUpgradeRequest {} "localhost" "/").1.key ++ [0x89, 2],
      [104, 105, 0x81, 2, 104, 105, 0x88, 2, 3, 232]].flatten =
      acceptAnswer ((Engine.fresh true 125).clientUpgradeRequest {} "localhost" "/").1.key ++
        [0x89, 2, 104, 105, 0x81, 2, 104, 105, 0x88, 2, 3, 232] := by
    simp
  exact upgraded_client_follows_the_one_call_decoding _ "localhost" "/" 125 {} rfl (by simp) rfl ⟨rfl, rfl⟩ stream
    (whole_acceptAnswer Crypto.sample_lawful _) ⟨_, clientUpgrade_acceptAnswer Crypto.sample_lawful _⟩
    (by simp [decoded, Event.IsFatal])

/-- A close that came in the same read as the upgrade answer, and so waits in the backlog, closes
the client at the first receive: a message in a later read is never handed over, though decoding
the bytes in one call gives it. -/
theorem message_after_a_received_close_is_never_handed_over :
    ((Engine.fresh true 125).receive [0x88, 2, 3, 232, 0x81, 2, 104, 105]).1 =
        [.close [] 1000, .message [104, 105]] ∧
      ∀ us, ((WsClient.mk { conn := { cues := [.data [0x81, 2, 104, 105] false] } }
        { Engine.fresh true 125 with handshaked := true } [0x88, 2, 3, 232] false false).uses
          (.receive :: us)).1.flatMap Prod.snd = [.close [] 1000] := by
  refine ⟨by decide +kernel, fun us => ?_⟩
  set c := WsClient.mk { conn := { cues := [.data [0x81, 2, 104, 105] false] } }
    { Engine.fresh true 125 with handshaked := true } [0x88, 2, 3, 232] false false
  have decoded : (c.engine.receive [0x88, 2, 3, 232]).1 = [.close [] 1000] := by decide +kernel
  have ready : c.engine.Ready := Engine.ready_fresh true 125
  have closing : (c.engine.receive [0x88, 2, 3, 232]).1.findSome? Event.closing = some 1000 := by
    rw [decoded]
    rfl
  -- the backlog is decoded first: its close is answered and closes the client
  obtain ⟨g, w, -, took⟩ := WsClient.takeData_closing (c := { c with backlog := [] }) ready rfl rfl ⟨rfl, rfl⟩ closing
  have received : c.receive = ({ c with backlog := [] } : WsClient).takeData [0x88, 2, 3, 232] := rfl
  have shaken : (c.engine.receive [0x88, 2, 3, 232]).2.handshaked = true := Engine.handshaked_receive ready _
  simp only [WsClient.uses, Use.apply, List.flatMap_cons]
  rw [received, took]
  dsimp only
  rw [(WsClient.uses_closed shaken rfl us).2, List.append_nil]
  exact decoded

theorem reconnected_client_writes_a_second_close :
    ∃ c₁ key g, (WsClient.mk { conn := { cues := [.data (acceptAnswer (({ Engine.fresh true 125 with
        handshaked := true } : Engine).clientUpgradeRequest {} "localhost" "/").1.key) false] } }
        { Engine.fresh true 125 with handshaked := true } [] true true).connect "localhost" "/" = (.ok (), c₁) ∧
      c₁.close 1000 = (.ok (), { c₁.wrote g (encodeFrame .close true (some key) [] 1000) with closeSent := true }) := by
  set c := WsClient.mk { conn := { cues := [.data (acceptAnswer (({ Engine.fresh true 125 with
    handshaked := true } : Engine).clientUpgradeRequest {} "localhost" "/").1.key) false] } }
    { Engine.fresh true 125 with handshaked := true } [] true true
  have whole := whole_acceptAnswer Crypto.sample_lawful (c.engine.clientUpgradeRequest {} "localhost" "/").1.key
  have script : c.http.conn.cues =
      [acceptAnswer (c.engine.clientUpgradeRequest {} "localhost" "/").1.key].map (Net.Cue.data · false) := rfl
  have streaming := Net.Replay.streaming_of_pieces (by simpa using List.ne_nil_of_length_pos whole.length_pos) script
  have stream : c.http.conn.pending = acceptAnswer (c.engine.clientUpgradeRequest {} "localhost" "/").1.key ++ [] := by
    simp [Net.Replay.pending_of_pieces script]
  obtain ⟨c₁, connected, engine, -, -, unlimited, -, sent, closed⟩ := WsClient.connect_of_stream c "localhost" "/"
    streaming ⟨rfl, rfl⟩ stream whole (clientUpgrade_acceptAnswer Crypto.sample_lawful _)
  have shaken : c₁.engine.handshaked = true := by rw [engine]
  obtain ⟨key, g, closing⟩ := WsClient.close_open shaken closed unlimited sent 1000
  exact ⟨c₁, key, g, connected, closing⟩

end

end Switchboard.WebSocket
