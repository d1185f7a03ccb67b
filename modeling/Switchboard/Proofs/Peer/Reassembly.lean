import Switchboard.Peer.FrameReader
import Switchboard.Server.Operations
import Switchboard.Proofs.Peer.FrameRoundTrip
/-!
# Reassembling a stream of frames

Whatever reads a stream of frames is cut into, a reader drained after each read takes every message
once, in order, in the first drain after its last byte. Between reads it holds only the start of
the next frame (`Waiting`), and the run follows by induction (`receiveChunks_prefix`).
-/
namespace Switchboard.Peer

def frames (ms : List Message) : List UInt8 := (ms.map Message.encode).flatten

@[simp] theorem frames_nil : frames [] = [] := rfl

@[simp] theorem frames_cons (m : Message) (ms : List Message) : frames (m :: ms) = m.encode ++ frames ms := rfl

theorem frames_append (ms ms' : List Message) : frames (ms ++ ms') = frames ms ++ frames ms' := by
  simp [frames]

theorem frames_take_append_drop (ms : List Message) (k : Nat) :
    frames (ms.take k) ++ frames (ms.drop k) = frames ms := by
  rw [← frames_append, List.take_append_drop]

/-- A message that a reader with the limit `max` takes whole: its codes and ids fit their fields,
and its body fits the length prefix and the limit. -/
structure Message.Framed (max : Nat) (m : Message) : Prop where
  inRange : m.InRange
  short : m.body.length < Nat.pow 2 32
  fits : m.body.length ≤ max

/-- What a reader holds between two messages of a stream: nothing once no message is left, and less
than the next message's frame otherwise. -/
def Waiting (held : List UInt8) : List Message → Prop
  | [] => held = []
  | m :: _ => held.length < m.encode.length

theorem length_le_frames (ms : List Message) : ms.length ≤ (frames ms).length := by
  induction ms with
  | nil => simp
  | cons m ms ih =>
    have : 4 ≤ m.encode.length := by simp [Message.encode, length_bigEndian]
    simp only [frames_cons, List.length_append, List.length_cons]
    omega

/-- Bytes at the start of a stream are whole frames, then less than the next frame. -/
theorem exists_waiting (ms : List Message) {pushed more : List UInt8} (whole : pushed ++ more = frames ms) :
    ∃ k held, pushed = frames (ms.take k) ++ held ∧ Waiting held (ms.drop k) := by
  induction ms generalizing pushed with
  | nil => exact ⟨0, [], (List.append_eq_nil_iff.1 whole).1, rfl⟩
  | cons m ms ih =>
    by_cases inFirst : pushed.length < m.encode.length
    · exact ⟨0, pushed, by simp, inFirst⟩
    · have first : pushed.take m.encode.length = m.encode := by
        have := congrArg (List.take m.encode.length) whole
        rwa [List.take_append_of_le_length (Nat.le_of_not_lt inFirst), frames_cons, List.take_left] at this
      have rest : pushed.drop m.encode.length ++ more = frames ms := by
        have := congrArg (List.drop m.encode.length) whole
        rwa [List.drop_append_of_le_length (Nat.le_of_not_lt inFirst), frames_cons, List.drop_left] at this
      obtain ⟨k, held, split, waiting⟩ := ih rest
      refine ⟨k + 1, held, ?_, by simpa using waiting⟩
      rw [← List.take_append_drop m.encode.length pushed, first, split]
      simp

theorem waiting_nil (ms : List Message) : Waiting [] ms := by
  cases ms with
  | nil => rfl
  | cons m ms =>
    show 0 < m.encode.length
    simp [Message.encode, length_bigEndian]

theorem eq_nil_of_waiting_frames {ms : List Message} (waiting : Waiting (frames ms) ms) : ms = [] := by
  cases ms with
  | nil => rfl
  | cons m ms =>
    have : (m.encode ++ frames ms).length < m.encode.length := waiting
    simp at this

theorem Message.length_encode {m : Message} (short : m.body.length < Nat.pow 2 32) :
    m.encode.length = 4 + m.body.length := by
  rw [encode_eq_prefixed short, List.length_append, length_bigEndian]

namespace FrameReader

/-- A reader holding a whole frame takes its message and keeps what follows. -/
theorem next_frame {r : FrameReader} {m : Message} {rest : List UInt8} (held : r.buffer = m.encode ++ rest)
    (framed : m.Framed r.maxMessageSize) :
    r.next = (.ok (some m.received), { r with buffer := rest }) := by
  rw [encode_eq_prefixed framed.short, List.append_assoc] at held
  have fits : m.body.length < Nat.pow 256 4 := framed.short
  have long : ¬ r.buffer.length < lengthSize := by
    simp [held, length_bigEndian, lengthSize]
  have prefixed : readBigEndian (r.buffer.take lengthSize) = m.body.length := by
    rw [held, lengthSize, take_bigEndian_append, readBigEndian_bigEndian_of_lt fits]
  have whole : ¬ r.buffer.length < lengthSize + m.body.length := by
    simp [held, length_bigEndian, lengthSize]
  have body : (r.buffer.drop lengthSize).take m.body.length = m.body := by
    rw [held, lengthSize, drop_bigEndian_append, List.take_left]
  have after : r.buffer.drop (lengthSize + m.body.length) = rest := by
    rw [held, lengthSize, ← List.drop_drop, drop_bigEndian_append, List.drop_left]
  simp only [next, long, if_false, prefixed, Nat.not_lt.2 framed.fits, whole, body, after,
    decode_body framed.inRange]
  rfl

/-- A reader holding less than the next frame of a stream waits for more. -/
theorem next_of_waiting {r : FrameReader} {ms : List Message} {more : List UInt8}
    (held : r.buffer ++ more = frames ms) (framed : ∀ m ∈ ms, m.Framed r.maxMessageSize)
    (waiting : Waiting r.buffer ms) : r.next = (.ok none, r) := by
  cases ms with
  | nil =>
    have empty : r.buffer = [] := waiting
    simp [next, empty, lengthSize]
  | cons m ms =>
    have first := framed m List.mem_cons_self
    by_cases partial4 : r.buffer.length < lengthSize
    · simp only [next, partial4, if_true]
    · have sameTake : r.buffer.take lengthSize = m.encode.take lengthSize := by
        have := congrArg (List.take lengthSize) held
        rwa [frames_cons, List.take_append_of_le_length (Nat.le_of_not_lt partial4),
          List.take_append_of_le_length (by rw [Message.length_encode first.short, lengthSize]; omega)] at this
      have prefixed : readBigEndian (r.buffer.take lengthSize) = m.body.length := by
        rw [sameTake, encode_eq_prefixed first.short, lengthSize, take_bigEndian_append,
          readBigEndian_bigEndian_of_lt (show m.body.length < Nat.pow 256 4 from first.short)]
      have incomplete : r.buffer.length < lengthSize + m.body.length := by
        have : r.buffer.length < m.encode.length := waiting
        rw [Message.length_encode first.short] at this
        exact this
      simp only [next, partial4, if_false, prefixed, Nat.not_lt.2 first.fits, incomplete, if_true]

/-- Draining a reader that holds whole frames, then less than the next one, takes their messages
in order and keeps the rest. The induction is on the frames held; each step takes one. -/
theorem drainWith_frames {ms later : List Message} {rest more : List UInt8} (fuel : Nat) (r : FrameReader)
    (held : r.buffer = frames ms ++ rest) (framed : ∀ m ∈ ms, m.Framed r.maxMessageSize)
    (after : rest ++ more = frames later) (framedLater : ∀ m ∈ later, m.Framed r.maxMessageSize)
    (waiting : Waiting rest later) (enough : ms.length < fuel) :
    r.drainWith fuel = (ms.map fun m => .ok m.received, { r with buffer := rest }) := by
  induction ms generalizing r fuel with
  | nil =>
    obtain ⟨fuel, rfl⟩ : ∃ f, fuel = f + 1 := ⟨fuel - 1, by simp at enough; omega⟩
    have holds : r.buffer = rest := by simpa using held
    have waits : r.next = (.ok none, r) := next_of_waiting (holds ▸ after) framedLater (holds ▸ waiting)
    have same : { r with buffer := rest } = r := by rw [← holds]
    simp only [drainWith, waits, List.map_nil, same]
  | cons m ms ih =>
    obtain ⟨fuel, rfl⟩ : ∃ f, fuel = f + 1 := ⟨fuel - 1, by simp at enough; omega⟩
    have holding : r.buffer = m.encode ++ (frames ms ++ rest) := by rw [held, frames_cons, List.append_assoc]
    have takes := next_frame holding (framed m List.mem_cons_self)
    have drained := ih fuel { r with buffer := frames ms ++ rest } rfl
      (fun m' mem => framed m' (List.mem_cons_of_mem m mem)) framedLater (by simpa using enough)
    simp only [drainWith, takes, drained, List.map_cons]

def receiveChunks (r : FrameReader) : List (List UInt8) → List (List (Except PeerError Message)) × FrameReader
  | [] => ([], r)
  | c :: cs =>
    let (out, r) := (r.push c).drain
    let (outs, r) := r.receiveChunks cs
    (out :: outs, r)

theorem drain_push {r : FrameReader} {ms : List Message} {c more : List UInt8}
    (held : r.buffer ++ c ++ more = frames ms) (framed : ∀ m ∈ ms, m.Framed r.maxMessageSize) :
    ∃ k rest, r.buffer ++ c = frames (ms.take k) ++ rest ∧ Waiting rest (ms.drop k) ∧
      (r.push c).drain = ((ms.take k).map fun m => .ok m.received, { r with buffer := rest }) := by
  obtain ⟨k, rest, split, waiting⟩ := exists_waiting ms held
  have after : rest ++ more = frames (ms.drop k) := by
    have total : frames (ms.take k) ++ (rest ++ more) = frames (ms.take k) ++ frames (ms.drop k) := by
      rw [frames_take_append_drop, ← held, split, List.append_assoc]
    exact List.append_cancel_left total
  have enough : (ms.take k).length < (r.push c).buffer.length + 1 := by
    have := length_le_frames (ms.take k)
    have pushed : (r.push c).buffer = r.buffer ++ c := rfl
    rw [pushed, split, List.length_append]
    omega
  refine ⟨k, rest, split, waiting, ?_⟩
  exact drainWith_frames _ (r.push c) split (fun m mem => framed m (List.mem_of_mem_take mem)) after
    (fun m mem => framed m (List.mem_of_mem_drop mem)) waiting enough

/-- Reads that bring a stream of frames so far: the drains took the messages of the frames now
whole, in order, and the reader holds what follows them, less than the next frame. The
induction is on the reads, with the step `drain_push`. -/
theorem receiveChunks_prefix (cs : List (List UInt8)) {r : FrameReader} {ms : List Message} {more : List UInt8}
    (held : r.buffer ++ cs.flatten ++ more = frames ms) (framed : ∀ m ∈ ms, m.Framed r.maxMessageSize)
    (waiting : Waiting r.buffer ms) :
    ∃ k, (r.receiveChunks cs).1.flatten = (ms.take k).map (fun m => .ok m.received) ∧
      r.buffer ++ cs.flatten = frames (ms.take k) ++ (r.receiveChunks cs).2.buffer ∧
      Waiting (r.receiveChunks cs).2.buffer (ms.drop k) ∧
      (r.receiveChunks cs).2.maxMessageSize = r.maxMessageSize := by
  induction cs generalizing r ms with
  | nil => exact ⟨0, by simp [receiveChunks], by simp [receiveChunks], by simpa [receiveChunks] using waiting, rfl⟩
  | cons c cs ih =>
    rw [List.flatten_cons, ← List.append_assoc] at held
    have pushing : r.buffer ++ c ++ (cs.flatten ++ more) = frames ms := by
      rw [← List.append_assoc]
      exact held
    obtain ⟨k, rest, split, waiting', drained⟩ := drain_push pushing framed
    have held' : ({ r with buffer := rest } : FrameReader).buffer ++ cs.flatten ++ more = frames (ms.drop k) := by
      have total : frames (ms.take k) ++ (rest ++ cs.flatten ++ more) =
          frames (ms.take k) ++ frames (ms.drop k) := by
        rw [frames_take_append_drop, ← held, split]
        simp
      exact List.append_cancel_left total
    obtain ⟨k', took, whole, waits, same⟩ :=
      ih held' (fun m mem => framed m (List.mem_of_mem_drop mem)) waiting'
    refine ⟨k + k', ?_, ?_, ?_, by simpa [receiveChunks, drained] using same⟩
    · simp only [receiveChunks, drained, List.flatten_cons, took, List.take_add, List.map_append]
    · simp only [receiveChunks, drained, List.flatten_cons]
      rw [← List.append_assoc, split, List.append_assoc, whole, List.take_add, frames_append, List.append_assoc]
    · simpa [receiveChunks, drained, List.drop_drop] using waits

theorem receiveChunks_append (r : FrameReader) (cs ds : List (List UInt8)) :
    r.receiveChunks (cs ++ ds) =
      ((r.receiveChunks cs).1 ++ ((r.receiveChunks cs).2.receiveChunks ds).1,
        ((r.receiveChunks cs).2.receiveChunks ds).2) := by
  induction cs generalizing r with
  | nil => rfl
  | cons c cs ih => simp only [List.cons_append, receiveChunks, ih, List.cons_append]

theorem length_receiveChunks (r : FrameReader) (cs : List (List UInt8)) :
    (r.receiveChunks cs).1.length = cs.length := by
  induction cs generalizing r with
  | nil => rfl
  | cons c cs ih => simp [receiveChunks, ih]

theorem take_receiveChunks (r : FrameReader) (cs : List (List UInt8)) (j : Nat) :
    (r.receiveChunks cs).1.take j = (r.receiveChunks (cs.take j)).1 := by
  by_cases within : j ≤ cs.length
  · have first : (r.receiveChunks (cs.take j)).1.length = j := by
      rw [length_receiveChunks, List.length_take]
      omega
    conv_lhs => rw [← List.take_append_drop j cs, receiveChunks_append]
    rw [List.take_append_of_le_length first.ge, List.take_of_length_le first.le]
  · have whole : cs.take j = cs := List.take_of_length_le (by omega)
    rw [whole, List.take_of_length_le (by rw [length_receiveChunks]; omega)]

end FrameReader

theorem frame_reader_takes_each_message_once (max : Nat) (ms : List Message) (framed : ∀ m ∈ ms, m.Framed max)
    (cs : List (List UInt8)) (split : cs.flatten = frames ms) :
    (({ maxMessageSize := max } : FrameReader).receiveChunks cs).1.flatten = ms.map (fun m => .ok m.received) ∧
      (({ maxMessageSize := max } : FrameReader).receiveChunks cs).2.buffered = 0 ∧
      ∀ j ≤ cs.length, ∃ k,
        ((({ maxMessageSize := max } : FrameReader).receiveChunks cs).1.take j).flatten =
          (ms.take k).map (fun m => .ok m.received) ∧
        (cs.take j).flatten = frames (ms.take k) ++
          (({ maxMessageSize := max } : FrameReader).receiveChunks (cs.take j)).2.buffer ∧
        Waiting (({ maxMessageSize := max } : FrameReader).receiveChunks (cs.take j)).2.buffer (ms.drop k) := by
  have start := waiting_nil ms
  have held : ({ maxMessageSize := max } : FrameReader).buffer ++ cs.flatten ++ [] = frames ms := by
    simpa using split
  obtain ⟨k, took, whole, waits, -⟩ := FrameReader.receiveChunks_prefix cs held framed start
  have rest : (({ maxMessageSize := max } : FrameReader).receiveChunks cs).2.buffer = frames (ms.drop k) := by
    have total : frames (ms.take k) ++ (({ maxMessageSize := max } : FrameReader).receiveChunks cs).2.buffer =
        frames (ms.take k) ++ frames (ms.drop k) := by
      rw [frames_take_append_drop, ← split, ← whole, List.nil_append]
    exact List.append_cancel_left total
  have none : ms.drop k = [] := eq_nil_of_waiting_frames (rest ▸ waits)
  refine ⟨?_, ?_, fun j within => ?_⟩
  · rw [took, List.take_of_length_le (List.drop_eq_nil_iff.1 none)]
  · simp [FrameReader.buffered, rest, none]
  · have held : ({ maxMessageSize := max } : FrameReader).buffer ++ (cs.take j).flatten ++ (cs.drop j).flatten =
        frames ms := by
      show [] ++ (cs.take j).flatten ++ (cs.drop j).flatten = frames ms
      rw [List.nil_append, ← List.flatten_append, List.take_append_drop, split]
    obtain ⟨k, took, whole, waits, -⟩ := FrameReader.receiveChunks_prefix (cs.take j) held framed start
    exact ⟨k, by rw [FrameReader.take_receiveChunks, took], by simpa using whole, waits⟩


def Message.request? : Message → Option Request
  | .request q => some q
  | _ => none

theorem request?_received (m : Message) : m.received.request? = m.request? := by
  cases m <;> rfl

end Switchboard.Peer

namespace Switchboard.Server

open Switchboard.Peer

variable {κ : Type}

theorem Session.id_send (s : Session) (data : List UInt8) : (s.send data).2.id = s.id := by
  unfold Session.send
  split <;> rfl

theorem Link.id_reply (l : Link) (m : Message) : (l.reply m).session.id = l.session.id :=
  Session.id_send _ _

namespace OperationService

def readerOf (s : OperationService κ) (l : Link) (max : Nat) : FrameReader :=
  (s.readers.lookup l.session.id).getD { maxMessageSize := max }

/-- The service after `on_received` on each read of one session, in order, with each read's
time: the link it leaves and the jobs of each read. -/
def receiveReads (s : OperationService κ) (l : Link) (max : Nat) :
    List (Nat × List UInt8) → OperationService κ × Link × List (List (Job κ))
  | [] => (s, l, [])
  | (now, data) :: reads =>
    let (s, l, jobs) := s.receive l max now data
    let (s, l, more) := s.receiveReads l max reads
    (s, l, jobs :: more)

/-- Requests handed to a request handler `handle`, each list at its time, in order: the link they
leave and the jobs of each list. -/
def handOut (handle : Nat → Link × List (Job κ) → Request → Link × List (Job κ)) (l : Link) :
    List (Nat × List Request) → Link × List (List (Job κ))
  | [] => (l, [])
  | (now, qs) :: rest =>
    let (l, jobs) := qs.foldl (handle now) (l, [])
    let (l, more) := handOut handle l rest
    (l, jobs :: more)

theorem handleRequest_readers (s : OperationService κ) (readers : List (Nat × FrameReader)) :
    ({ s with readers } : OperationService κ).handleRequest = s.handleRequest := rfl

theorem id_handleRequest (s : OperationService κ) (now : Nat) (acc : Link × List (Job κ)) (q : Request) :
    (s.handleRequest now acc q).1.session.id = acc.1.session.id := by
  obtain ⟨l, jobs⟩ := acc
  dsimp only [handleRequest]
  split
  · exact Link.id_reply _ _
  · split
    · exact Link.id_reply _ _
    · split
      · rfl
      · exact Link.id_reply _ _

theorem id_foldl_handleRequest (s : OperationService κ) (now : Nat) (qs : List Request) (acc : Link × List (Job κ)) :
    (qs.foldl (s.handleRequest now) acc).1.session.id = acc.1.session.id := by
  induction qs generalizing acc with
  | nil => rfl
  | cons q qs ih => rw [List.foldl_cons, ih, id_handleRequest]

theorem lookup_setReader (readers : List (Nat × FrameReader)) (id : Nat) (r : FrameReader) :
    ((readers.filter (·.1 != id)) ++ [(id, r)]).lookup id = some r := by
  have others : (readers.filter (·.1 != id)).lookup id = none := by
    rw [List.lookup_eq_none_iff]
    intro p mem
    have := (List.mem_filter.1 mem).2
    rw [bne_comm]
    exact this
  rw [List.lookup_append, others, Option.none_or, List.lookup_cons_self]

theorem receive_of_ok (s : OperationService κ) (l : Link) (max now : Nat) (data : List UInt8)
    {xs : List Message} {r : FrameReader} (drained : ((s.readerOf l max).push data).drain = (xs.map .ok, r)) :
    s.receive l max now data =
      ({ s with readers := (s.readers.filter (·.1 != l.session.id)) ++ [(l.session.id, r)] },
        (xs.filterMap Message.request?).foldl (s.handleRequest now) (l, [])) := by
  have requests : ∀ f : Except PeerError Message → Option Request, (∀ m, f (.ok m) = m.request?) →
      (xs.map Except.ok).filterMap f = xs.filterMap Message.request? := by
    intro f each
    rw [List.filterMap_map]
    exact List.filterMap_congr fun m _ => each m
  unfold receive
  simp only [readerOf] at drained
  simp only [drained]
  rw [if_neg (by simp), requests _ fun m => by cases m <;> rfl]
  rfl

/-- `on_received` over the reads of one session hands the requests each read's drain takes to
request handling, read by read, as long as no drain meets an error. The induction is on the reads;
each step is `receive_of_ok`, and the session's reader after a read is the one the drain left. -/
theorem receiveReads_of_drains (s : OperationService κ) (l : Link) (max : Nat) (reads : List (Nat × List UInt8))
    {xss : List (List Message)}
    (drains : ((s.readerOf l max).receiveChunks (reads.map Prod.snd)).1 = xss.map (List.map .ok)) :
    (s.receiveReads l max reads).2 =
      handOut s.handleRequest l ((reads.map Prod.fst).zip (xss.map (List.filterMap Message.request?))) := by
  induction reads generalizing s l xss with
  | nil =>
    cases xss with
    | nil => rfl
    | cons xs xss => cases drains
  | cons read reads ih =>
    obtain ⟨now, data⟩ := read
    cases xss with
    | nil => cases drains
    | cons xs xss =>
      have split := drains
      simp only [List.map_cons, FrameReader.receiveChunks, List.cons.injEq] at split
      obtain ⟨first, later⟩ := split
      have drained : ((s.readerOf l max).push data).drain = (xs.map .ok, ((s.readerOf l max).push data).drain.2) := by
        rw [← first]
      have same : ∀ l' : Link, l'.session.id = l.session.id →
          ({ s with readers := (s.readers.filter (·.1 != l.session.id)) ++
            [(l.session.id, ((s.readerOf l max).push data).drain.2)] } : OperationService κ).readerOf l' max =
            ((s.readerOf l max).push data).drain.2 := by
        intro l' sameId
        simp only [readerOf, sameId, lookup_setReader, Option.getD_some]
      have step := receive_of_ok s l max now data drained
      have rest := ih { s with readers := (s.readers.filter (·.1 != l.session.id)) ++
          [(l.session.id, ((s.readerOf l max).push data).drain.2)] }
        ((xs.filterMap Message.request?).foldl (s.handleRequest now) (l, [])).1
        (by rw [same _ (id_foldl_handleRequest s now _ (l, []))]; exact later)
      simp only [receiveReads, step, List.map_cons, List.zip_cons_cons, handOut, rest, handleRequest_readers]

theorem exists_ok_of_flatten {outs : List (List (Except PeerError Message))} {ys : List Message}
    (all : outs.flatten = ys.map .ok) : ∃ xss : List (List Message), outs = xss.map (List.map .ok) ∧ xss.flatten = ys := by
  induction outs generalizing ys with
  | nil => exact ⟨[], rfl, by simpa [eq_comm] using all⟩
  | cons out outs ih =>
    rw [List.flatten_cons, eq_comm, List.map_eq_append_iff] at all
    obtain ⟨ys₁, ys₂, rfl, first, later⟩ := all
    obtain ⟨xss, rest, whole⟩ := ih later.symm
    exact ⟨ys₁ :: xss, by rw [List.map_cons, first, rest], by rw [List.flatten_cons, whole]⟩

theorem receiveReads_stream (s : OperationService κ) (l : Link) (max : Nat) {ms : List Message}
    (framed : ∀ m ∈ ms, m.Framed max) (reads : List (Nat × List UInt8))
    (split : (reads.map Prod.snd).flatten = frames ms) (fresh : s.readers.lookup l.session.id = none) :
    ∃ qss : List (List Request), qss.flatten = ms.filterMap Message.request? ∧
      (s.receiveReads l max reads).2 = handOut s.handleRequest l ((reads.map Prod.fst).zip qss) := by
  have start : s.readerOf l max = { maxMessageSize := max } := by simp [readerOf, fresh]
  obtain ⟨all, -, -⟩ := frame_reader_takes_each_message_once max ms framed _ split
  have oks : ((s.readerOf l max).receiveChunks (reads.map Prod.snd)).1.flatten =
      (ms.map Message.received).map .ok := by
    rw [start, all, List.map_map]
    rfl
  obtain ⟨xss, drains, whole⟩ := exists_ok_of_flatten oks
  refine ⟨xss.map (List.filterMap Message.request?), ?_, receiveReads_of_drains s l max reads drains⟩
  rw [← List.filterMap_flatten, whole, List.filterMap_map]
  exact List.filterMap_congr fun m _ => request?_received m

end OperationService

end Switchboard.Server

namespace Switchboard.Peer

open Switchboard.Server

/-- Frames of messages that a reader with the limit `max` takes whole are reassembled exactly,
whatever the split. A reader fed them in any reads and drained after each takes each message once,
in order, with no error, in the first drain after its last byte, as its frame carries it
(`Message.received`), and holds nothing at the end. A service that keeps one reader per session,
starting without one, hands request handling exactly the requests of the session's stream, in
order, each read's at its time. -/
theorem split_frames_reassemble_exactly (max : Nat) (ms : List Message) (framed : ∀ m ∈ ms, m.Framed max)
    (cs : List (List UInt8)) (split : cs.flatten = frames ms) :
    ((({ maxMessageSize := max } : FrameReader).receiveChunks cs).1.flatten = ms.map (fun m => .ok m.received) ∧
      (({ maxMessageSize := max } : FrameReader).receiveChunks cs).2.buffered = 0 ∧
      ∀ j ≤ cs.length, ∃ k,
        ((({ maxMessageSize := max } : FrameReader).receiveChunks cs).1.take j).flatten =
          (ms.take k).map (fun m => .ok m.received) ∧
        (cs.take j).flatten = frames (ms.take k) ++
          (({ maxMessageSize := max } : FrameReader).receiveChunks (cs.take j)).2.buffer ∧
        Waiting (({ maxMessageSize := max } : FrameReader).receiveChunks (cs.take j)).2.buffer (ms.drop k)) ∧
    ∀ {κ : Type} (s : OperationService κ) (l : Link) (reads : List (Nat × List UInt8)),
      (reads.map Prod.snd).flatten = frames ms → s.readers.lookup l.session.id = none →
      ∃ qss : List (List Request), qss.flatten = ms.filterMap Message.request? ∧
        (s.receiveReads l max reads).2 = OperationService.handOut s.handleRequest l ((reads.map Prod.fst).zip qss) :=
  ⟨frame_reader_takes_each_message_once max ms framed cs split,
    fun s l reads split fresh => s.receiveReads_stream l max framed reads split fresh⟩

/-- A response with a debug message and an event, their frames read in two pieces split inside the
first length prefix, are taken back as they were sent. -/
theorem response_and_event_reassemble_from_two_reads :
    (∀ m ∈ [Message.response ⟨12, 65535, .maxPendingRequest, some "busy", [0, 1]⟩, .event ⟨1, [101]⟩],
        m.Framed 1024) ∧
      (({ maxMessageSize := 1024 } : FrameReader).receiveChunks
        [(frames [.response ⟨12, 65535, .maxPendingRequest, some "busy", [0, 1]⟩, .event ⟨1, [101]⟩]).take 3,
         (frames [.response ⟨12, 65535, .maxPendingRequest, some "busy", [0, 1]⟩, .event ⟨1, [101]⟩]).drop 3]).1.flatten =
        [.ok (.response ⟨12, 65535, .maxPendingRequest, some "busy", [0, 1]⟩), .ok (.event ⟨1, [101]⟩)] := by
  have framed : ∀ m ∈ [Message.response ⟨12, 65535, .maxPendingRequest, some "busy", [0, 1]⟩,
      .event ⟨1, [101]⟩], m.Framed 1024 := by
    intro m mem
    simp only [List.mem_cons, List.not_mem_nil, or_false] at mem
    rcases mem with rfl | rfl
    · exact ⟨by decide, by decide +kernel, by decide +kernel⟩
    · exact ⟨by decide, by decide +kernel, by decide +kernel⟩
  obtain ⟨⟨all, -, -⟩, -⟩ := split_frames_reassemble_exactly 1024 _ framed
    [(frames [.response ⟨12, 65535, .maxPendingRequest, some "busy", [0, 1]⟩, .event ⟨1, [101]⟩]).take 3,
     (frames [.response ⟨12, 65535, .maxPendingRequest, some "busy", [0, 1]⟩, .event ⟨1, [101]⟩]).drop 3]
    (by simp)
  refine ⟨framed, ?_⟩
  rw [all]
  simp [Message.received, carriedDebug_of_fits (show DebugFits (some "busy") by decide +kernel)]

/-- A response whose debug message is empty is taken back from its frame with no debug message. -/
theorem empty_debug_message_comes_back_as_none :
    (({ maxMessageSize := 1024 } : FrameReader).receiveChunks
        [frames [.response ⟨1, 2, .ok, some "", []⟩]]).1.flatten ≠ [.ok (.response ⟨1, 2, .ok, some "", []⟩)] := by
  have framed : ∀ m ∈ [Message.response ⟨1, 2, .ok, some "", []⟩], m.Framed 1024 := by
    intro m mem
    rw [List.mem_singleton] at mem
    subst mem
    exact ⟨by decide, by decide +kernel, by decide +kernel⟩
  obtain ⟨all, -, -⟩ := frame_reader_takes_each_message_once 1024 _ framed
    [frames [.response ⟨1, 2, .ok, some "", []⟩]] (by simp)
  rw [all]
  simp [Message.received, carriedDebug]

end Switchboard.Peer
