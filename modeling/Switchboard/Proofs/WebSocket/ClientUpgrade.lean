import Mathlib
import Switchboard.Proofs.Http.WholeRequest
import Switchboard.Proofs.WebSocket.OpeningHandshake
import Switchboard.WebSocket.Client
/-!
# Reading the upgrade answer off a stream

A client that reads an accepted answer whole from the head of a stream keeps what came after it as
its backlog, so its backlog followed by the rest of the stream is exactly the bytes after the answer
(`WsClient.connect_of_stream`).
-/
namespace Switchboard.Net

def Cue.bytes : Cue → List UInt8
  | .data bs _ => bs
  | _ => []

namespace Replay

def pending (r : Replay) : List UInt8 := r.cues.flatMap Cue.bytes

def Streaming (r : Replay) : Prop := ∀ c ∈ r.cues, ∃ bs, bs ≠ [] ∧ c = .data bs false

/-- A peer that takes every write whole. -/
structure Unlimited (r : Replay) : Prop where
  writeMax : r.writeMax = 0
  writeBudget : r.writeBudget = none

theorem pending_eq_nil_iff {r : Replay} (streaming : r.Streaming) : r.pending = [] ↔ r.cues = [] := by
  constructor
  · intro empty
    cases cues : r.cues with
    | nil => rfl
    | cons c cs =>
      obtain ⟨bs, nonempty, rfl⟩ := streaming c (by rw [cues]; exact List.mem_cons_self)
      simp [pending, cues, Cue.bytes, nonempty] at empty
  · intro empty
    rw [pending, empty]
    rfl

theorem read_of_streaming [Crypto] {r : Replay} (streaming : r.Streaming) (max : Nat) (positive : 0 < max) :
    ∃ n cues, n ≤ max ∧ (r.pending ≠ [] → 0 < n) ∧
      r.read max = (.ok (r.pending.take n), { r with cues }) ∧
      ({ r with cues } : Replay).pending = r.pending.drop n ∧ ({ r with cues } : Replay).Streaming := by
  cases script : r.cues with
  | nil =>
    refine ⟨0, [], Nat.zero_le _, fun nonempty => absurd ((pending_eq_nil_iff streaming).2 script) nonempty,
      ?_, by rw [(pending_eq_nil_iff streaming).2 script]; rfl, fun c mem => by cases mem⟩
    simp [read, script]
    cases r
    simp_all
  | cons c rest =>
    obtain ⟨bs, nonempty, rfl⟩ := streaming c (by rw [script]; exact List.mem_cons_self)
    have others : ∀ c ∈ rest, ∃ bs, bs ≠ [] ∧ c = .data bs false :=
      fun c mem => streaming c (by simp [script, mem])
    have whole : r.pending = bs ++ rest.flatMap Cue.bytes := by
      simp [pending, script, Cue.bytes]
    by_cases later : (bs.drop max).isEmpty
    · -- the read takes the whole piece
      have short : bs.length ≤ max := by simpa using later
      refine ⟨bs.length, rest, short, fun _ => List.length_pos_iff.2 nonempty, ?_, ?_, others⟩
      · simp [read, script, later, List.take_of_length_le short, whole]
      · show rest.flatMap Cue.bytes = r.pending.drop bs.length
        rw [whole, List.drop_left]
    · -- the read takes `max` bytes and leaves the rest of the piece first in line
      have long : max < bs.length := by simpa using later
      refine ⟨max, .data (bs.drop max) :: rest, le_refl _, fun _ => positive, ?_, ?_, ?_⟩
      · simp only [read, script, Bool.false_eq_true, if_false, later]
        rw [whole, List.take_append_of_le_length (by omega)]
      · show (Cue.data (bs.drop max) :: rest).flatMap Cue.bytes = r.pending.drop max
        rw [whole, List.drop_append_of_le_length (le_of_lt long)]
        rfl
      · intro c mem
        rcases List.mem_cons.1 mem with rfl | mem
        · exact ⟨bs.drop max, by simpa using long, rfl⟩
        · exact others c mem

theorem writeAll_of_unlimited {r : Replay} (unlimited : r.Unlimited) (bytes : List UInt8) :
    r.writeAll bytes = (.ok (), { r with written := r.written ++ bytes }) := by
  unfold writeAll
  cases bytes with
  | nil => simp [writeAll.go]
  | cons b bs =>
    simp [writeAll.go, write, unlimited.writeMax, unlimited.writeBudget]

theorem length_pending_lt_weight (r : Replay) : r.pending.length < r.weight := by
  -- the weight is a fold that adds at least one more than each cue's bytes
  have grows : ∀ (f : Nat → Cue → Nat), (∀ n c, n + 1 + c.bytes.length ≤ f n c) →
      ∀ (cs : List Cue) (n : Nat), n + (cs.flatMap Cue.bytes).length ≤ cs.foldl f n := by
    intro f each cs
    induction cs with
    | nil => simp
    | cons c cs ih =>
      intro n
      have next := ih (f n c)
      have first := each n c
      simp only [List.flatMap_cons, List.length_append, List.foldl_cons] at next ⊢
      omega
  unfold weight pending
  refine Nat.lt_of_lt_of_le (by omega) (grows _ ?_ r.cues 1)
  intro n c
  cases c <;> simp [Cue.bytes]
  omega

end Replay

end Switchboard.Net

namespace Switchboard.Http

namespace Response

/-- Responses that hold the same status line, fields and body. -/
structure Same (r r' : Response) : Prop where
  status : r.status = r'.status
  phrase : r.phrase = r'.phrase
  protocol : r.protocol = r'.protocol
  headers : r.headers = r'.headers
  cookies : r.cookies = r'.cookies
  body : r.body = r'.body

theorem Same.trans {r r' r'' : Response} (h : Same r r') (h' : Same r' r'') : Same r r'' :=
  ⟨h.status.trans h'.status, h.phrase.trans h'.phrase, h.protocol.trans h'.protocol,
    h.headers.trans h'.headers, h.cookies.trans h'.cookies, h.body.trans h'.body⟩

theorem same_ofReception {s s' : Reception (StartLine × Nat)} (h : s.Same s') :
    Same (ofReception s) (ofReception s') :=
  ⟨by simp only [ofReception, h.answer], by simp only [ofReception, h.answer], by simp only [ofReception, h.answer],
    h.headers, h.cookies, h.body⟩

theorem exists_ofReception (r : Response) : ∃ s, ofReception s = r :=
  ⟨⟨r.toMessage, some (⟨r.protocol, "", r.phrase, 0⟩, r.status)⟩, rfl⟩

theorem receive_ofReception (s : Reception (StartLine × Nat)) (d : List UInt8) :
    receiver.receive (ofReception s) d = ((reader.receiver.receive s d).1, ofReception (reader.receiver.receive s d).2) :=
  Receiver.receive_map receiver reader.receiver ofReception (fun _ => rfl) header_ofReception (fun _ _ => rfl) s d

/-- Bytes that hold exactly one response: read at once it completes, its body is framed by a
declared length or by a status that has none, and the body ends the bytes. -/
structure Whole (b : List UInt8) : Prop where
  complete : (ofBytes b).state = .complete
  framed : (ofBytes b).cursor.lengthGiven = true ∨ (ofBytes b).bodyless = true
  ends : ∃ t, findTerminator b 0 = some t ∧ t + 4 + (ofBytes b).bodyLength = b.length

theorem Whole.toReader {b : List UInt8} (whole : Whole b) : reader.Whole b := by
  obtain ⟨complete, framed, ends⟩ := whole
  rw [ofBytes_eq_ofReception] at complete framed ends
  exact ⟨complete, framed, ends⟩

theorem Whole.length_pos {b : List UInt8} (whole : Whole b) : 0 < b.length :=
  whole.toReader.length_pos

theorem receiveChunks_whole {b : List UInt8} (whole : Whole b) {qs : List (List UInt8)} {tail : List UInt8}
    (within : qs.flatten <+: b ++ tail) :
    (receiver.receiveChunks {} qs).state ≠ .errorSet ∧
      ((receiver.receiveChunks {} qs).state = .complete ↔ b.length ≤ qs.flatten.length) ∧
      ((receiver.receiveChunks {} qs).state = .complete →
        Same (receiver.receiveChunks {} qs) (ofBytes b) ∧
          (receiver.receiveChunks {} qs).cursor.index + (receiver.receiveChunks {} qs).cursor.size =
            b.length) := by
  have held : receiver.receiveChunks {} qs = ofReception (reader.receiver.receiveChunks {} qs) :=
    receiveChunks_ofReception {} qs
  obtain ⟨failed, reach, agree⟩ := reader.receiveChunks_whole whole.toReader within
  rw [held, ofBytes_eq_ofReception]
  exact ⟨failed, reach, fun done => ⟨same_ofReception (agree done).1, (agree done).2⟩⟩

theorem raw_receive {r : Response} (sound : r.cache.length ≤ r.cache.capacity) (d : List UInt8) :
    (receiver.receive r d).2.cache.length ≤ (receiver.receive r d).2.cache.capacity ∧
      (receiver.receive r d).2.raw = r.raw ++ d := by
  obtain ⟨s, rfl⟩ := exists_ofReception r
  rw [receive_ofReception]
  exact reader.raw_receive sound d

theorem receiveHeader_parts (r : Response) (d : List UInt8) :
    (r.receiveHeader d).1 =
        (r.toMessage.receiveHeader d "Set-Cookie" fun line => (readStatus line).map (line, ·)).1.isSome ∧
      (r.receiveHeader d).2.state =
        (r.toMessage.receiveHeader d "Set-Cookie" fun line => (readStatus line).map (line, ·)).2.state := by
  unfold receiveHeader
  split <;> next m read => simp [read]

theorem state_receiveBody (r : Response) (d : List UInt8) :
    (r.receiveBody d).2.state = if (r.receiveBody d).1 then .complete else r.state := rfl

theorem receive_done {r : Response} (unsettled : receiver.settled r = false) (d : List UInt8) :
    (receiver.receive r d).1 = true ↔ (receiver.receive r d).2.state = .complete := by
  obtain ⟨s, rfl⟩ := exists_ofReception r
  rw [receive_ofReception]
  exact reader.receive_done unsettled d

/-- A response that has received the pieces `ps`, which fall short of the whole response `b`. -/
structure Receiving (b : List UInt8) (ps : List (List UInt8)) (r : Response) : Prop where
  pieces : r = receiver.receiveChunks {} ps
  sound : r.cache.length ≤ r.cache.capacity
  raw : r.raw = ps.flatten
  short : ps.flatten.length < b.length

theorem Receiving.toReader {b : List UInt8} {ps : List (List UInt8)} {r : Response} (h : Receiving b ps r) :
    reader.Receiving b ps (reader.receiver.receiveChunks {} ps) ∧
      r = ofReception (reader.receiver.receiveChunks {} ps) := by
  have held : r = ofReception (reader.receiver.receiveChunks {} ps) :=
    h.pieces.trans (receiveChunks_ofReception {} ps)
  subst held
  exact ⟨⟨rfl, h.sound, h.raw, h.short⟩, rfl⟩

theorem receiving_ofReception {b : List UInt8} {ps : List (List UInt8)} {s : Reception (StartLine × Nat)}
    (h : reader.Receiving b ps s) : Receiving b ps (ofReception s) :=
  ⟨by rw [h.pieces]; exact (receiveChunks_ofReception {} ps).symm, h.sound, h.raw, h.short⟩

section Receiving

variable {b tail d : List UInt8} {ps : List (List UInt8)} {r : Response}

theorem receiving_empty (whole : Whole b) : Receiving b [] {} :=
  receiving_ofReception (Reader.receiving_empty whole.toReader)

theorem Receiving.unsettled (h : Receiving b ps r) (whole : Whole b) (within : ps.flatten <+: b ++ tail) :
    receiver.settled r = false := by
  obtain ⟨g, rfl⟩ := h.toReader
  exact g.unsettled whole.toReader within

theorem Receiving.receive_short (h : Receiving b ps r) (whole : Whole b)
    (within : ps.flatten ++ d <+: b ++ tail) (short : (ps.flatten ++ d).length < b.length) :
    (receiver.receive r d).1 = false ∧ (receiver.receive r d).2.state ≠ .errorSet ∧
      Receiving b (ps ++ [d]) (receiver.receive r d).2 := by
  obtain ⟨g, rfl⟩ := h.toReader
  obtain ⟨done, fine, next⟩ := g.receive_short whole.toReader within short
  rw [receive_ofReception]
  exact ⟨done, fine, receiving_ofReception next⟩

theorem Receiving.receive_long (h : Receiving b ps r) (whole : Whole b)
    (within : ps.flatten ++ d <+: b ++ tail) (long : b.length ≤ (ps.flatten ++ d).length) :
    (receiver.receive r d).1 = true ∧ Same (receiver.receive r d).2 (ofBytes b) ∧
      (receiver.receive r d).2.surplus = (ps.flatten ++ d).drop b.length := by
  obtain ⟨g, rfl⟩ := h.toReader
  obtain ⟨done, same, surplus⟩ := g.receive_long whole.toReader within long
  rw [receive_ofReception, ofBytes_eq_ofReception]
  exact ⟨done, same_ofReception same, surplus⟩

end Receiving

end Response

end Switchboard.Http

namespace Switchboard.Http

open Switchboard.Net

namespace HttpClient

variable [Crypto]

theorem receiveWith_of_read (c : HttpClient) (f : Nat) {data : List UInt8} {conn : Replay}
    (read : c.conn.read readChunk = (.ok data, conn)) (nonempty : data ≠ [])
    (unsettled : Response.receiver.settled c.response = false)
    (fine : (Response.receiver.receive c.response data).2.state ≠ .errorSet) :
    c.receiveWith (f + 1) =
      if (Response.receiver.receive c.response data).1 then
        (.ok (Response.receiver.receive c.response data).2,
          { c with conn, response := (Response.receiver.receive c.response data).2 })
      else receiveWith f { c with conn, response := (Response.receiver.receive c.response data).2 } := by
  obtain ⟨x, xs, rfl⟩ := List.exists_cons_of_ne_nil nonempty
  have open_ : c.response.state ≠ .complete ∧ c.response.state ≠ .errorSet := by
    simpa [Response.receiver] using unsettled
  by_cases pending : c.response.isPendingHeader = true
  · -- the read goes to the header block, then to an empty body read if the block is read
    rw [Receiver.receive_of_pending _ pending] at fine ⊢
    obtain ⟨done, state⟩ := Response.receiveHeader_parts c.response (x :: xs)
    simp only [Response.receiver] at fine ⊢
    rcases Message.state_receiveHeader_of_pending pending (x :: xs) "Set-Cookie"
      (fun line => (readStatus line).map (line, ·)) with ⟨readIt, body⟩ | ⟨none, unread, -⟩
    · have yes : (c.response.receiveHeader (x :: xs)).1 = true := by rw [done, readIt]
      have bodyState : (c.response.receiveHeader (x :: xs)).2.state = .pendingBody := by rw [state, body]
      simp only [yes, if_true] at fine ⊢
      rw [receiveWith, read]
      simp only [pending, if_true, bodyState]
      cases (c.response.receiveHeader (x :: xs)).2.receiveBody [] with
      | mk finished r => cases finished <;> rfl
    · have no : (c.response.receiveHeader (x :: xs)).1 = false := by rw [done, none]; rfl
      simp only [no, Bool.false_eq_true, if_false] at fine ⊢
      have notBody : (c.response.receiveHeader (x :: xs)).2.state ≠ .pendingBody := by
        rw [state]
        exact unread
      rw [receiveWith, read]
      simp [pending, fine, notBody]
  · -- past the header block every read goes to the body
    have body : c.response.state = .pendingBody := by
      cases state : c.response.state <;> simp_all [Message.isPendingHeader]
    have waiting : Response.receiver.pending c.response = false := by
      show c.response.isPendingHeader = false
      simpa using pending
    rw [Receiver.receive_of_not_pending _ waiting] at fine ⊢
    simp only [Response.receiver] at fine ⊢
    rw [receiveWith, read]
    have ne : (ParseState.pendingBody == ParseState.errorSet) = false := rfl
    simp only [pending, Bool.false_eq_true, if_false, body, ne, beq_self_eq_true, if_true]
    split <;> next r read => simp [read]

theorem receiveWith_whole {b tail : List UInt8} (whole : Response.Whole b) :
    ∀ (fuel : Nat) (c : HttpClient) (ps : List (List UInt8)), c.conn.Streaming →
      Response.Receiving b ps c.response → ps.flatten ++ c.conn.pending = b ++ tail →
      b.length - ps.flatten.length ≤ fuel →
      ∃ r cues, c.receiveWith fuel = (.ok r, { c with conn := { c.conn with cues }, response := r }) ∧
        Response.Same r (Response.ofBytes b) ∧ r.surplus ++ ({ c.conn with cues } : Replay).pending = tail ∧
        ({ c.conn with cues } : Replay).Streaming := by
  intro fuel
  induction fuel with
  | zero =>
    intro c ps _ receiving _ enough
    have := receiving.short
    omega
  | succ f ih =>
    intro c ps streaming receiving stream enough
    have short := receiving.short
    have left : c.conn.pending ≠ [] := by
      intro empty
      rw [empty, List.append_nil] at stream
      have := congrArg List.length stream
      simp only [List.length_append] at this
      omega
    obtain ⟨n, cues, -, positive, read, after, streaming'⟩ :=
      Replay.read_of_streaming streaming readChunk (by decide)
    have taken : c.conn.pending.take n ≠ [] := by
      simpa [List.take_eq_nil_iff] using And.intro (Nat.pos_iff_ne_zero.1 (positive left)) left
    have within : ps.flatten ++ c.conn.pending.take n <+: b ++ tail := by
      rw [← stream]
      exact (List.prefix_append_right_inj _).2 (List.take_prefix _ _)
    have unsettled := receiving.unsettled whole (List.prefix_append _ _ |>.trans within)
    by_cases long : b.length ≤ (ps.flatten ++ c.conn.pending.take n).length
    · -- this read reaches the end of the response
      obtain ⟨done, same, surplus⟩ := receiving.receive_long whole within long
      have complete := (Response.receive_done unsettled _).1 done
      refine ⟨_, cues, ?_, same, ?_, streaming'⟩
      · rw [receiveWith_of_read c f read taken unsettled (by rw [complete]; decide), if_pos done]
      · rw [surplus, after, ← List.drop_append_of_le_length long, List.append_assoc,
          List.take_append_drop, stream, List.drop_left]
    · -- the response still waits: read on with one more piece
      obtain ⟨done, fine, receiving'⟩ := receiving.receive_short whole within (Nat.lt_of_not_le long)
      have stream' : (ps ++ [c.conn.pending.take n]).flatten ++ ({ c.conn with cues } : Replay).pending =
          b ++ tail := by
        rw [after, List.flatten_append, List.flatten_singleton, List.append_assoc, List.take_append_drop,
          stream]
      have fewer : b.length - (ps ++ [c.conn.pending.take n]).flatten.length ≤ f := by
        have : 0 < (c.conn.pending.take n).length := List.length_pos_iff.2 taken
        simp only [List.flatten_append, List.flatten_singleton, List.length_append]
        omega
      obtain ⟨r, cues', run, same, surplus, streaming''⟩ :=
        ih { c with conn := { c.conn with cues }, response := (Response.receiver.receive c.response
          (c.conn.pending.take n)).2 } _ streaming' receiving' stream' fewer
      refine ⟨r, cues', ?_, same, surplus, streaming''⟩
      rw [receiveWith_of_read c f read taken unsettled fine, if_neg (by simp [done]), run]

end HttpClient

end Switchboard.Http

namespace Switchboard.Http

open Switchboard.Net

namespace HttpClient

variable [Crypto]

theorem exchange_whole (c : HttpClient) (request : Request) {b tail : List UInt8} (whole : Response.Whole b)
    (streaming : c.conn.Streaming) (unlimited : c.conn.Unlimited) (stream : c.conn.pending = b ++ tail) :
    ∃ r cues, c.exchange request =
        (.ok r, { c with conn := { c.conn with cues, written := c.conn.written ++ request.raw }, response := r }) ∧
      Response.Same r (Response.ofBytes b) ∧ r.surplus ++ ({ c.conn with cues } : Replay).pending = tail ∧
      ({ c.conn with cues } : Replay).Streaming := by
  have sent : c.send request.raw = (.ok (), { c with conn := { c.conn with written := c.conn.written ++ request.raw } }) := by
    simp only [send, Replay.writeAll_of_unlimited unlimited]
  have enough : b.length - ([] : List (List UInt8)).flatten.length ≤ c.conn.weight := by
    have bound := Replay.length_pending_lt_weight c.conn
    rw [stream, List.length_append] at bound
    simp only [List.flatten_nil, List.length_nil, Nat.sub_zero]
    omega
  obtain ⟨r, cues, run, same, surplus, streaming'⟩ := receiveWith_whole whole c.conn.weight
    { c with conn := { c.conn with written := c.conn.written ++ request.raw }, response := {} } []
    streaming (Response.receiving_empty whole) (by rw [List.flatten_nil, List.nil_append]; exact stream) enough
  refine ⟨r, cues, ?_, same, surplus, streaming'⟩
  rw [exchange, sent]
  exact run

end HttpClient

end Switchboard.Http

namespace Switchboard.WebSocket

open Switchboard.Http Switchboard.Net

theorem Engine.clientUpgrade_congr [Crypto] (e : Engine) {r r' : Response} (same : Response.Same r r') :
    e.clientUpgrade r = e.clientUpgrade r' := by
  unfold Engine.clientUpgrade
  rw [same.status, same.phrase, same.headers]

namespace WsClient

variable [Crypto]

/-- Connecting over a stream whose head is a whole answer the client accepts: the request is
written whole, the client is upgraded, nothing is sent or closed yet, and the bytes after the
answer are all still to be decoded, the backlog first. -/
theorem connect_of_stream (c : WsClient) (host path : String) {b tail : List UInt8} {e : Engine}
    (streaming : c.http.conn.Streaming) (unlimited : c.http.conn.Unlimited)
    (stream : c.http.conn.pending = b ++ tail) (whole : Response.Whole b)
    (accepted : (c.engine.clientUpgradeRequest {} host path).1.clientUpgrade (Response.ofBytes b) = .ok e) :
    ∃ c', c.connect host path = (.ok (), c') ∧ c'.engine = e ∧ c'.backlog ++ c'.http.conn.pending = tail ∧
      c'.http.conn.Streaming ∧ c'.http.conn.Unlimited ∧
      c'.http.conn.written = c.http.conn.written ++ (c.engine.clientUpgradeRequest {} host path).2.raw ∧
      c'.closeSent = false ∧ c'.closed = false := by
  obtain ⟨r, cues, exchanged, same, surplus, streaming'⟩ :=
    c.http.exchange_whole (c.engine.clientUpgradeRequest {} host path).2 whole streaming unlimited stream
  have upgraded : (c.engine.clientUpgradeRequest {} host path).1.clientUpgrade r = .ok e := by
    rw [Engine.clientUpgrade_congr _ same, accepted]
  rw [connect]
  generalize c.engine.clientUpgradeRequest {} host path = q at exchanged upgraded ⊢
  obtain ⟨engine, request⟩ := q
  simp only [upgradeWith, exchanged, upgraded]
  exact ⟨_, rfl, rfl, surplus, streaming', ⟨unlimited.writeMax, unlimited.writeBudget⟩, rfl, rfl, rfl⟩

end WsClient

end Switchboard.WebSocket
