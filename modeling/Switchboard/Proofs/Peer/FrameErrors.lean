import Mathlib
import Switchboard.Proofs.Peer.Reassembly
/-!
# What a frame reader's errors take away

A prefix above the limit is refused with nothing taken, and again on every later call
(`Jammed.replay`); a frame whose body does not decode is taken off before the error
(`next_takes_nothing_or_a_frame`). The service then disconnects the session after handling the
requests before the error (`receive_of_refused`).
-/
namespace Switchboard.Peer

def Declares (header body : List UInt8) : Prop :=
  header.length = lengthSize ∧ readBigEndian header = body.length

theorem decode_error_codec {body : List UInt8} {e : PeerError} (bad : decode body = .error e) :
    ∃ text, e = .codec text := by
  unfold decode need at bad
  split at bad
  · cases bad
    exact ⟨_, rfl⟩
  · split_ifs at bad <;> simp [bind, Except.bind, pure, Except.pure] at bad <;> grind

namespace FrameReader

def declared (r : FrameReader) : Option Nat :=
  if r.buffer.length < lengthSize then none else some (readBigEndian (r.buffer.take lengthSize))

theorem declared_eq_some {r : FrameReader} {n : Nat} :
    r.declared = some n ↔
      lengthSize ≤ r.buffer.length ∧ readBigEndian (r.buffer.take lengthSize) = n := by
  unfold declared
  split <;> simp_all

@[simp] theorem push_buffer (r : FrameReader) (data : List UInt8) :
    (r.push data).buffer = r.buffer ++ data := rfl

@[simp] theorem push_maxMessageSize (r : FrameReader) (data : List UInt8) :
    (r.push data).maxMessageSize = r.maxMessageSize := rfl

@[simp] theorem push_nil (r : FrameReader) : r.push [] = r := by
  simp [push]

theorem push_push (r : FrameReader) (data more : List UInt8) :
    (r.push data).push more = r.push (data ++ more) := by
  simp [push, List.append_assoc]

theorem declared_push {r : FrameReader} {n : Nat} (data : List UInt8) (declares : r.declared = some n) :
    (r.push data).declared = some n := by
  obtain ⟨long, read⟩ := declared_eq_some.1 declares
  refine declared_eq_some.2 ⟨by simp; omega, ?_⟩
  rw [push_buffer, List.take_append_of_le_length long, read]

theorem next_of_over {r : FrameReader} {n : Nat} (declares : r.declared = some n)
    (above : r.maxMessageSize < n) : r.next = (.error (.messageTooLarge n), r) := by
  obtain ⟨long, rfl⟩ := declared_eq_some.1 declares
  simp only [next, Nat.not_lt.2 long, if_false, above, if_true]

/-- A whole frame within the limit is taken off, whether or not its body decodes. -/
theorem next_whole {r : FrameReader} {header body rest : List UInt8}
    (held : r.buffer = header ++ body ++ rest) (declares : Declares header body)
    (fits : body.length ≤ r.maxMessageSize) :
    r.next = ((decode body).map some, { r with buffer := rest }) := by
  obtain ⟨four, read⟩ := declares
  rw [List.append_assoc] at held
  have long : ¬ r.buffer.length < lengthSize := by
    simp [held, four]
  have prefixed : readBigEndian (r.buffer.take lengthSize) = body.length := by
    rw [held, ← four, List.take_left, read]
  have whole : ¬ r.buffer.length < lengthSize + body.length := by
    simp [held, four]
  have taken : (r.buffer.drop lengthSize).take body.length = body := by
    rw [held, ← four, List.drop_left, List.take_left]
  have after : r.buffer.drop (lengthSize + body.length) = rest := by
    rw [held, ← four, ← List.drop_drop, List.drop_left, List.drop_left]
  simp only [next, long, if_false, prefixed, Nat.not_lt.2 fits, whole, taken, after]

/-- Every call of `next` leaves the reader as it was or takes one whole frame within the limit
off the front, and then answers with what its body decodes to. -/
theorem next_takes_nothing_or_a_frame (r : FrameReader) :
    (r.next).2 = r ∨
      ∃ header body rest, r.buffer = header ++ body ++ rest ∧ Declares header body ∧
        body.length ≤ r.maxMessageSize ∧ r.next = ((decode body).map some, { r with buffer := rest }) := by
  by_cases short : r.buffer.length < lengthSize
  · left
    simp only [next, short, if_true]
  · -- past the prefix: name the declared length and split on the limit and on completeness
    have long := Nat.le_of_not_lt short
    generalize declared : readBigEndian (r.buffer.take lengthSize) = n
    by_cases above : r.maxMessageSize < n
    · left
      simp only [next, short, if_false, declared, above, if_true]
    · by_cases incomplete : r.buffer.length < lengthSize + n
      · left
        simp only [next, short, if_false, declared, above, incomplete, if_true]
      · -- the frame is whole: the prefix, the declared body, and the rest
        right
        have headerLength : (r.buffer.take lengthSize).length = lengthSize := by
          rw [List.length_take]
          omega
        have bodyLength : ((r.buffer.drop lengthSize).take n).length = n := by
          simp only [List.length_take, List.length_drop]
          omega
        have parts : r.buffer = r.buffer.take lengthSize ++ (r.buffer.drop lengthSize).take n ++
            r.buffer.drop (lengthSize + n) := by
          rw [List.append_assoc, ← List.drop_drop, List.take_append_drop, List.take_append_drop]
        have declares : Declares (r.buffer.take lengthSize) ((r.buffer.drop lengthSize).take n) :=
          ⟨headerLength, by rw [bodyLength, declared]⟩
        have fits : ((r.buffer.drop lengthSize).take n).length ≤ r.maxMessageSize := by
          omega
        exact ⟨_, _, _, parts, declares, fits, next_whole parts declares fits⟩

/-- A reader whose buffer declares a length `n` above its limit. -/
structure Jammed (n : Nat) (r : FrameReader) : Prop where
  declares : r.declared = some n
  above : r.maxMessageSize < n

theorem Jammed.push {n : Nat} {r : FrameReader} (jammed : Jammed n r) (data : List UInt8) :
    Jammed n (r.push data) :=
  ⟨declared_push data jammed.declares, jammed.above⟩

theorem Jammed.next {n : Nat} {r : FrameReader} (jammed : Jammed n r) :
    r.next = (.error (.messageTooLarge n), r) :=
  next_of_over jammed.declares jammed.above

/-- A call on a reader: bytes pushed, or a request for the next message. -/
inductive Call where
  | push (data : List UInt8)
  | next

def Call.pushed : List Call → List UInt8
  | [] => []
  | .push data :: calls => data ++ Call.pushed calls
  | .next :: calls => Call.pushed calls

def Call.nexts : List Call → Nat
  | [] => 0
  | .push _ :: calls => Call.nexts calls
  | .next :: calls => Call.nexts calls + 1

def replay (r : FrameReader) : List Call → List (Except PeerError (Option Message)) × FrameReader
  | [] => ([], r)
  | .push data :: calls => (r.push data).replay calls
  | .next :: calls =>
    let (answer, r) := r.next
    let (answers, r) := r.replay calls
    (answer :: answers, r)

/-- A jammed reader refuses the same length at every later call, whatever is pushed, and only
gathers the bytes pushed. The induction is on the calls; `Jammed` is kept by each. -/
theorem Jammed.replay {n : Nat} {r : FrameReader} (jammed : Jammed n r) (calls : List Call) :
    r.replay calls =
      (List.replicate (Call.nexts calls) (.error (.messageTooLarge n)), r.push (Call.pushed calls)) := by
  induction calls generalizing r with
  | nil => simp [FrameReader.replay, Call.nexts, Call.pushed]
  | cons call calls ih =>
    cases call with
    | push data => simp [FrameReader.replay, ih (jammed.push data), Call.nexts, Call.pushed, push_push]
    | next => simp [FrameReader.replay, jammed.next, ih jammed, Call.nexts, Call.pushed, List.replicate_succ]

end FrameReader

/-- Whole frames within the limit `max` whose bodies decode to `ms`, one after another. -/
inductive Decodes (max : Nat) : List UInt8 → List Message → Prop
  | nil : Decodes max [] []
  | cons {header body rest : List UInt8} {m : Message} {ms : List Message} (declares : Declares header body)
      (fits : body.length ≤ max) (decoded : decode body = .ok m) (more : Decodes max rest ms) :
      Decodes max (header ++ body ++ rest) (m :: ms)

theorem Decodes.length_le {max : Nat} {bytes : List UInt8} {ms : List Message} (decodes : Decodes max bytes ms) :
    ms.length ≤ bytes.length := by
  induction decodes with
  | nil => simp
  | cons declares _ _ _ ih =>
    simp [declares.1, lengthSize]
    omega

/-- Bytes that start with what a reader with the limit `max` refuses, the error it gives, and the
bytes it keeps: a length prefix above the limit, kept with all that follows, or a whole frame
within the limit whose body does not decode, taken off. -/
inductive Refused (max : Nat) : List UInt8 → PeerError → List UInt8 → Prop
  | tooLarge {bytes : List UInt8} (long : lengthSize ≤ bytes.length)
      (above : max < readBigEndian (bytes.take lengthSize)) :
      Refused max bytes (.messageTooLarge (readBigEndian (bytes.take lengthSize))) bytes
  | malformed {header body rest : List UInt8} {e : PeerError} (declares : Declares header body)
      (fits : body.length ≤ max) (bad : decode body = .error e) :
      Refused max (header ++ body ++ rest) e rest

namespace FrameReader

theorem next_of_refused {max : Nat} {bytes kept : List UInt8} {e : PeerError} (refused : Refused max bytes e kept) :
    ({ buffer := bytes, maxMessageSize := max } : FrameReader).next =
      (.error e, { buffer := kept, maxMessageSize := max }) := by
  cases refused with
  | tooLarge long above => exact next_of_over (declared_eq_some.2 ⟨long, rfl⟩) above
  | malformed declares fits bad =>
    rw [next_whole (r := { buffer := _ ++ _ ++ _, maxMessageSize := max }) rfl declares fits, bad]
    rfl

theorem drainWith_refused {max fuel : Nat} {good bad kept : List UInt8} {ms : List Message} {e : PeerError}
    (decodes : Decodes max good ms) (refused : Refused max bad e kept) (enough : ms.length < fuel) :
    ({ buffer := good ++ bad, maxMessageSize := max } : FrameReader).drainWith fuel =
      (ms.map .ok ++ [.error e], { buffer := kept, maxMessageSize := max }) := by
  induction decodes generalizing fuel with
  | nil =>
    obtain ⟨fuel, rfl⟩ := Nat.exists_eq_add_of_lt enough
    simp [drainWith, next_of_refused refused]
  | @cons header body rest m ms declares fits decoded _ ih =>
    obtain ⟨fuel, rfl⟩ : ∃ f, fuel = f + 1 := ⟨fuel - 1, by simp at enough; omega⟩
    have held : ({ buffer := header ++ body ++ rest ++ bad, maxMessageSize := max } : FrameReader).buffer =
        header ++ body ++ (rest ++ bad) := by
      simp
    have first := next_whole held declares fits
    simp only [List.length_cons, Nat.add_lt_add_iff_right] at enough
    rw [drainWith, first, decoded]
    simp [Except.map, ih enough]

theorem drain_refused {max : Nat} {good bad kept : List UInt8} {ms : List Message} {e : PeerError}
    (decodes : Decodes max good ms) (refused : Refused max bad e kept) :
    ({ buffer := good ++ bad, maxMessageSize := max } : FrameReader).drain =
      (ms.map .ok ++ [.error e], { buffer := kept, maxMessageSize := max }) := by
  have few := decodes.length_le
  exact drainWith_refused decodes refused (by simp; omega)

end FrameReader

end Switchboard.Peer

namespace Switchboard.Server

open Switchboard.Peer

namespace OperationService

variable {κ : Type}

theorem filter_setReader (readers : List (Nat × FrameReader)) (id : Nat) (r : FrameReader) :
    ((readers.filter (·.1 != id)) ++ [(id, r)]).filter (·.1 != id) = readers.filter (·.1 != id) := by
  simp [List.filter_append, List.filter_filter]

/-- `on_received` for bytes that bring whole frames that decode, then a frame the reader refuses:
the requests among the messages before the refusal are handled in order, then the session's
reader is forgotten and the session disconnected. Nothing after the refusal is read. -/
theorem receive_of_refused (s : OperationService κ) (l : Link) (max now : Nat) (data : List UInt8)
    {good bad kept : List UInt8} {ms : List Message} {e : PeerError}
    (held : (s.readerOf l max).buffer ++ data = good ++ bad)
    (decodes : Decodes (s.readerOf l max).maxMessageSize good ms)
    (refused : Refused (s.readerOf l max).maxMessageSize bad e kept) :
    s.receive l max now data =
      (s.disconnected l.session.id,
        Prod.map Link.close id ((ms.filterMap Message.request?).foldl (s.handleRequest now) (l, []))) := by
  have drained : ((s.readerOf l max).push data).drain =
      (ms.map Except.ok ++ [Except.error e],
        { buffer := kept, maxMessageSize := (s.readerOf l max).maxMessageSize }) := by
    rw [← FrameReader.drain_refused decodes refused, ← held]
    rfl
  have requests : ∀ f : Except PeerError Message → Option Request, (∀ m, f (.ok m) = m.request?) →
      f (.error e) = none → (ms.map Except.ok ++ [Except.error e]).filterMap f = ms.filterMap Message.request? := by
    intro f each none
    simp only [List.filterMap_append, List.filterMap_map, List.filterMap_cons, List.filterMap_nil, none,
      List.append_nil]
    exact List.filterMap_congr fun m _ => each m
  unfold receive
  simp only [readerOf] at drained
  simp only [drained]
  rw [if_pos (by simp), requests _ (fun m => by cases m <;> rfl) rfl, filter_setReader,
    handleRequest_readers]
  rfl

end OperationService

end Switchboard.Server

namespace Switchboard.Peer

open Switchboard.Server

/-- What a frame reader's errors take, and what the operation service does on one. A length prefix
above the limit is refused at every later call, whatever is pushed, and nothing is taken; a whole
frame within the limit whose body does not decode is taken off whole with a codec error, so the
reader goes on from the bytes after it as if the frame had never come; no call takes part of a
frame. On either error the service handles, in order, the requests among the messages taken
before it, then forgets the session's reader and disconnects the session; nothing after the error
is read. -/
theorem frame_errors_take_nothing_or_the_refused_frame :
    (∀ (r : FrameReader) (n : Nat), r.declared = some n → r.maxMessageSize < n →
      ∀ calls : List FrameReader.Call, r.replay calls =
        (List.replicate (FrameReader.Call.nexts calls) (.error (.messageTooLarge n)),
          r.push (FrameReader.Call.pushed calls))) ∧
    (∀ (r : FrameReader) (header body rest : List UInt8) (e : PeerError),
      r.buffer = header ++ body ++ rest → Declares header body → body.length ≤ r.maxMessageSize →
      decode body = .error e →
        r.next = (.error e, { r with buffer := rest }) ∧ ∃ text, e = .codec text) ∧
    (∀ r : FrameReader, (r.next).2 = r ∨
      ∃ header body rest, r.buffer = header ++ body ++ rest ∧ Declares header body ∧
        (r.next).2 = { r with buffer := rest }) ∧
    (∀ {κ : Type} (s : OperationService κ) (l : Link) (max now : Nat)
        (data good bad kept : List UInt8) (ms : List Message) (e : PeerError),
      (s.readerOf l max).buffer ++ data = good ++ bad →
      Decodes (s.readerOf l max).maxMessageSize good ms →
      Refused (s.readerOf l max).maxMessageSize bad e kept →
      s.receive l max now data =
        (s.disconnected l.session.id,
          Prod.map Link.close id ((ms.filterMap Message.request?).foldl (s.handleRequest now) (l, [])))) := by
  refine ⟨fun r n declares above calls => FrameReader.Jammed.replay ⟨declares, above⟩ calls, ?_, ?_, ?_⟩
  · intro r header body rest e held declares fits bad
    refine ⟨?_, decode_error_codec bad⟩
    rw [FrameReader.next_whole held declares fits, bad]
    rfl
  · intro r
    obtain same | ⟨header, body, rest, held, declares, -, taken⟩ :=
      FrameReader.next_takes_nothing_or_a_frame r
    · exact .inl same
    · exact .inr ⟨header, body, rest, held, declares, by rw [taken]⟩
  · intro κ s l max now data good bad kept ms e held decodes refused
    exact OperationService.receive_of_refused s l max now data held decodes refused

/-- A prefix declaring 256 bytes against a limit of 255 is refused before and after two more bytes
come. A read that brings an event, a frame of an unknown kind and then a request disconnects the
session with no job: the event is no request, and the request after the bad frame is never read. -/
theorem refused_frames_stay_refused_and_close_the_session :
    ({ buffer := [0, 0, 1, 0], maxMessageSize := 255 } : FrameReader).replay [.next, .push [7, 7], .next] =
        ([.error (.messageTooLarge 256), .error (.messageTooLarge 256)],
          { buffer := [0, 0, 1, 0, 7, 7], maxMessageSize := 255 }) ∧
      ({} : OperationService Nat).receive ⟨Admission.ofSettings {}, { id := 1 }⟩ 16 0
          [0, 0, 0, 3, 3, 0, 7, 0, 0, 0, 1, 9, 0, 0, 0, 6, 1, 0, 1, 0, 1, 0] =
        (({} : OperationService Nat).disconnected 1,
          (⟨Admission.ofSettings {}, { id := 1 }⟩ : Link).close, []) :=
  ⟨frame_errors_take_nothing_or_the_refused_frame.1 _ 256 rfl (by decide) _,
    frame_errors_take_nothing_or_the_refused_frame.2.2.2 {} _ 16 0 _ [0, 0, 0, 3, 3, 0, 7]
      [0, 0, 0, 1, 9, 0, 0, 0, 6, 1, 0, 1, 0, 1, 0] [0, 0, 0, 6, 1, 0, 1, 0, 1, 0] [.event ⟨7, []⟩] _ rfl
      (@Decodes.cons _ [0, 0, 0, 3] [3, 0, 7] [] _ [] ⟨rfl, rfl⟩ (by decide) rfl .nil)
      (@Refused.malformed _ [0, 0, 0, 1] [9] _ _ ⟨rfl, rfl⟩ (by decide) rfl)⟩

end Switchboard.Peer
