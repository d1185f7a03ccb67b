import Switchboard.Proofs.WebSocket.Encoding
/-!
# Encoding and decoding are inverse

A stream of frames stands for events: a ping, a pong or a close may come anywhere, and a data
message is a text or binary frame followed by continuation frames up to one with the FIN bit, each
message delivered whole. `carried` reads a stream so, frame by frame with `Frame.carries`, and is
`none` for a stream that is not made of whole messages. The invariant `Engine.Resting` says what an
engine holds between the frames of such a stream; `Engine.Resting.receive_frame` is the step over
one encoded frame and `Engine.Resting.receive_frames` the run over a stream. The main statement:
a fresh engine given the encoded frames of a well-formed stream reports exactly what it carries.
-/
namespace Switchboard.WebSocket

namespace Frame

/-- What a frame carries in a stream where `pending` holds the fragments of an unfinished message
(`none` between messages): its events, and what is pending after it. A control frame may stand
anywhere, a text or binary frame starts a message and a continuation frame carries one on; `none`
marks a frame that cannot stand where it is. -/
def carries (f : Frame) (pending : Option (List UInt8)) : Option (List Event × Option (List UInt8)) :=
  match f.opcode, pending with
  | .ping, _ => some ([.ping f.payload], pending)
  | .pong, _ => some ([.pong f.payload], pending)
  | .close, _ => some ([f.closeEvent], pending)
  | .text, none | .binary, none => some (f.fragment [])
  | .continuation, some acc => some (f.fragment acc)
  | _, _ => none

end Frame

/-- The events a stream of frames carries, frame by frame, where `pending` holds the fragments of
an unfinished message at its start: `none` unless the frames finish that message and go on in
whole messages. -/
def carried (pending : Option (List UInt8)) : List Frame → Option (List Event)
  | [] => if pending.isNone then some [] else none
  | f :: fs =>
    match f.carries pending with
    | some (evs, pending') => (carried pending' fs).map (evs ++ ·)
    | none => none

theorem carried_nil {pending : Option (List UInt8)} {evs : List Event} (h : carried pending [] = some evs) :
    pending = none ∧ evs = [] := by
  cases pending <;> simp_all [carried]

theorem carried_cons {pending : Option (List UInt8)} {f : Frame} {fs : List Frame} {evs : List Event}
    (h : carried pending (f :: fs) = some evs) :
    ∃ now pending' later, f.carries pending = some (now, pending') ∧ carried pending' fs = some later ∧
      evs = now ++ later := by
  simp only [carried] at h
  split at h
  next now pending' step =>
    obtain ⟨later, tail, rfl⟩ := Option.map_eq_some_iff.1 h
    exact ⟨now, pending', later, step, tail, rfl⟩
  next => exact absurd h (by simp)

namespace Frame

theorem carries_of_isControl {f : Frame} (control : f.opcode.isControl = true) {pending : Option (List UInt8)}
    {now : List Event} {pending' : Option (List UInt8)} (h : f.carries pending = some (now, pending')) :
    pending' = pending := by
  cases opcode : f.opcode <;> simp_all [carries, Opcode.isControl, Opcode.code]

theorem fragment_of_carries {f : Frame} (data : f.opcode.isControl = false) {pending : Option (List UInt8)}
    {now : List Event} {pending' : Option (List UInt8)} (h : f.carries pending = some (now, pending')) :
    f.fragment (pending.getD []) = (now, pending') := by
  cases pending <;> cases opcode : f.opcode <;> simp_all [carries, Opcode.isControl, Opcode.code]

theorem fragment_cases {f : Frame} {acc : List UInt8} {now : List Event} {pending' : Option (List UInt8)}
    (h : f.fragment acc = (now, pending')) :
    (now = [.message (acc ++ f.payload)] ∧ pending' = none) ∨ (now = [] ∧ pending' = some (acc ++ f.payload)) := by
  unfold fragment at h
  cases fin : f.fin <;> simp_all

theorem error_not_mem_carries {f : Frame} {pending pending' : Option (List UInt8)} {now : List Event}
    (h : f.carries pending = some (now, pending')) (text : String) : Event.error text ∉ now := by
  cases control : f.opcode.isControl
  · rcases fragment_cases (fragment_of_carries control h) with ⟨rfl, -⟩ | ⟨rfl, -⟩ <;> simp
  · cases opcode : f.opcode <;> simp [opcode, Opcode.isControl, Opcode.code] at control
    all_goals
      simp only [carries, opcode, Option.some.injEq, Prod.mk.injEq] at h
      rw [← h.1]
    · unfold closeEvent
      split <;> simp
    · simp
    · simp

end Frame

theorem exists_message_of_carried {acc : List UInt8} {fs : List Frame} {evs : List Event}
    (h : carried (some acc) fs = some evs) : ∃ d, Event.message d ∈ evs ∧ acc.length ≤ d.length := by
  induction fs generalizing acc evs with
  | nil => simp [carried] at h
  | cons f fs ih =>
    obtain ⟨now, pending', later, step, tail, rfl⟩ := carried_cons h
    cases control : f.opcode.isControl
    · -- a continuation: the message ends with it, or goes on with longer fragments
      rcases Frame.fragment_cases (Frame.fragment_of_carries control step) with ⟨rfl, -⟩ | ⟨-, rfl⟩
      · exact ⟨acc ++ f.payload, by simp, by simp⟩
      · obtain ⟨d, mem, long⟩ := ih tail
        exact ⟨d, List.mem_append_right _ mem, by simp at long; omega⟩
    · rw [Frame.carries_of_isControl control step] at tail
      obtain ⟨d, mem, long⟩ := ih tail
      exact ⟨d, List.mem_append_right _ mem, long⟩

theorem exists_message_of_carries {f : Frame} (data : f.opcode.isControl = false)
    {pending pending' : Option (List UInt8)} {now later : List Event} {fs : List Frame}
    (step : f.carries pending = some (now, pending')) (tail : carried pending' fs = some later) :
    ∃ d, Event.message d ∈ now ++ later ∧ (pending.getD []).length + f.payload.length ≤ d.length := by
  rcases Frame.fragment_cases (Frame.fragment_of_carries data step) with ⟨rfl, -⟩ | ⟨-, rfl⟩
  · exact ⟨pending.getD [] ++ f.payload, by simp, by simp⟩
  · obtain ⟨d, mem, long⟩ := exists_message_of_carried tail
    exact ⟨d, List.mem_append_right _ mem, by simpa using long⟩

theorem error_not_mem_carried {pending : Option (List UInt8)} {fs : List Frame} {evs : List Event}
    (h : carried pending fs = some evs) (text : String) : Event.error text ∉ evs := by
  induction fs generalizing pending evs with
  | nil => simp [(carried_nil h).2]
  | cons f fs ih =>
    obtain ⟨now, pending', later, step, tail, rfl⟩ := carried_cons h
    simpa [Frame.error_not_mem_carries step text] using ih tail

namespace Engine

/-- An engine between the frames of a stream in which `pending` holds the fragments of an
unfinished message: ready for bytes and holding none of a frame, with `pending` as the message
under way, a text or binary one. -/
structure Resting (e : Engine) (pending : Option (List UInt8)) : Prop where
  ready : e.Ready
  empty : e.settle.frame = []
  message : e.settle.message = pending.getD []
  started : pending.isSome → e.settle.opcode = 1 ∨ e.settle.opcode = 2

theorem resting_fresh (client : Bool) (maxMessageSize : Nat) : (fresh client maxMessageSize).Resting none :=
  ⟨ready_fresh client maxMessageSize, rfl, rfl, by simp⟩

theorem resting_of_received {e : Engine} {pending : Option (List UInt8)} (received : e.frameReceived = true)
    (kept : e.finalReceived = false → e.message = pending.getD [] ∧ (pending.isSome → e.opcode = 1 ∨ e.opcode = 2))
    (delivered : e.finalReceived = true → pending = none) : e.Resting pending := by
  refine ⟨Or.inl received, ?_, ?_, ?_⟩
  · cases final : e.finalReceived <;> simp [settle, received, final, resetFrame]
  · cases final : e.finalReceived
    · simp [settle, received, final, resetFrame, (kept final).1]
    · simp [settle, received, final, resetFrame, delivered final]
  · cases final : e.finalReceived
    · simpa [settle, received, final, resetFrame] using (kept final).2
    · simp [delivered final]

theorem resting_fragment {e : Engine} {f : Frame} {acc : List UInt8} (received : e.frameReceived = true)
    (message : e.message = acc ++ f.payload) (final : e.finalReceived = f.fin)
    (started : e.opcode = 1 ∨ e.opcode = 2) : e.Resting (f.fragment acc).2 := by
  unfold Frame.fragment
  cases fin : f.fin
  · exact resting_of_received received (fun _ => ⟨message, fun _ => started⟩) (by simp [final, fin])
  · exact resting_of_received received (by simp [final, fin]) (fun _ => rfl)

theorem resting_start {e : Engine} (received : e.frameReceived = true) (final : e.finalReceived = false)
    (message : e.message = []) {f : Frame} (start : f.opcode = .text ∨ f.opcode = .binary) :
    (e.deliver f.first f.body).1 = (f.fragment []).1 ∧ (e.deliver f.first f.body).2.Resting (f.fragment []).2 ∧
      (e.deliver f.first f.body).2.maxMessageSize = e.maxMessageSize := by
  have opcode : f.opcode.code = 1 ∨ f.opcode.code = 2 := by
    rcases start with h | h <;> simp [h, Opcode.code]
  rw [deliver_start e start]
  exact ⟨by rw [message], resting_fragment received (by simp [message]) (by simp [final]) opcode, rfl⟩

theorem resting_deliver {e : Engine} {pending : Option (List UInt8)} (received : e.frameReceived = true)
    (final : e.finalReceived = false) (message : e.message = pending.getD [])
    (started : pending.isSome → e.opcode = 1 ∨ e.opcode = 2) {f : Frame} {evs : List Event}
    {pending' : Option (List UInt8)} (carries : f.carries pending = some (evs, pending')) :
    (e.deliver f.first f.body).1 = evs ∧ (e.deliver f.first f.body).2.Resting pending' ∧
      (e.deliver f.first f.body).2.maxMessageSize = e.maxMessageSize := by
  have unchanged : e.Resting pending := resting_of_received received (fun _ => ⟨message, started⟩) (by simp [final])
  unfold Frame.carries at carries
  split at carries
  next ping =>
    obtain ⟨rfl, rfl⟩ := Prod.mk.inj (Option.some.inj carries)
    rw [deliver_ping e ping]
    exact ⟨rfl, unchanged, rfl⟩
  next pong =>
    obtain ⟨rfl, rfl⟩ := Prod.mk.inj (Option.some.inj carries)
    rw [deliver_pong e pong]
    exact ⟨rfl, unchanged, rfl⟩
  next close =>
    obtain ⟨rfl, rfl⟩ := Prod.mk.inj (Option.some.inj carries)
    rw [deliver_close e close]
    exact ⟨rfl, unchanged, rfl⟩
  next text =>
    obtain ⟨rfl, rfl⟩ : (f.fragment []).1 = evs ∧ (f.fragment []).2 = pending' := by
      rw [Option.some.inj carries]
      exact ⟨rfl, rfl⟩
    exact resting_start received final message (Or.inl text)
  next binary =>
    obtain ⟨rfl, rfl⟩ : (f.fragment []).1 = evs ∧ (f.fragment []).2 = pending' := by
      rw [Option.some.inj carries]
      exact ⟨rfl, rfl⟩
    exact resting_start received final message (Or.inr binary)
  next acc continuation =>
    obtain ⟨rfl, rfl⟩ : (f.fragment acc).1 = evs ∧ (f.fragment acc).2 = pending' := by
      rw [Option.some.inj carries]
      exact ⟨rfl, rfl⟩
    simp only [Option.getD_some, Option.isSome_some, forall_const] at message started
    rw [deliver_continue e continuation started]
    exact ⟨by rw [message], resting_fragment received (by simp [message]) (by simp [final]) started, rfl⟩
  next => exact absurd carries (by simp)

/-- A resting engine deals with the whole encoded frame that comes next in a stream, when the
frame is addressable and its message within the limit, and rests after it with what the frame
leaves pending. -/
theorem Resting.receive_frame {e : Engine} {pending : Option (List UInt8)} (resting : e.Resting pending)
    {f : Frame} {evs : List Event} {pending' : Option (List UInt8)}
    (carries : f.carries pending = some (evs, pending')) (addressable : f.encode.length ≤ wordMax)
    (limit : (if f.opcode.isControl then f.body.length else (pending.getD []).length + f.body.length) ≤
      e.maxMessageSize) (rest : List UInt8) :
    ∃ e' : Engine, e'.Resting pending' ∧ e'.maxMessageSize = e.maxMessageSize ∧
      e.receive (f.encode ++ rest) = (evs ++ (e'.receive rest).1, (e'.receive rest).2) := by
  have size : e.settle.messageSize f.first f.body.length ≤ e.settle.maxMessageSize := by
    rw [messageSize, f.data_first, resting.message, maxMessageSize_settle]
    cases control : f.opcode.isControl
    · simp only [control, Bool.false_eq_true, if_false] at limit
      simp only [Bool.not_false, if_true]
      omega
    · simpa [control] using limit
  let held : Engine := { e.settle with frame := f.encode, frameReceived := true }
  obtain ⟨events, resting', same⟩ :=
    resting_deliver (e := held) rfl (finalReceived_settle e) resting.message resting.started carries
  refine ⟨(held.deliver f.first f.body).2, resting', same.trans (maxMessageSize_settle e), ?_⟩
  rw [receive_encode_append resting.ready resting.empty addressable size rest, ← events]

/-- A resting engine given the bytes of a stream of frames reports the events the stream carries,
when every frame is addressable and every control frame and message within the engine's limit. -/
theorem Resting.receive_frames {e : Engine} {pending : Option (List UInt8)} (resting : e.Resting pending)
    {fs : List Frame} {evs : List Event} (carried : carried pending fs = some evs)
    (addressable : ∀ f ∈ fs, f.encode.length ≤ wordMax)
    (controlFits : ∀ f ∈ fs, f.opcode.isControl = true → f.body.length ≤ e.maxMessageSize)
    (messagesFit : ∀ d, Event.message d ∈ evs → d.length ≤ e.maxMessageSize) :
    (e.receive (fs.flatMap Frame.encode)).1 = evs := by
  -- induction on the frames; the invariant `Resting` carries the fragments of the message under way
  induction fs generalizing e pending evs with
  | nil =>
    obtain ⟨-, rfl⟩ := carried_nil carried
    simp [receive_nil]
  | cons f fs ih =>
    obtain ⟨now, pending', later, step, tail, rfl⟩ := carried_cons carried
    have limit : (if f.opcode.isControl then f.body.length else (pending.getD []).length + f.body.length) ≤
        e.maxMessageSize := by
      cases control : f.opcode.isControl
      · -- the message the frame belongs to is delivered whole later on, within the limit
        obtain ⟨d, mem, long⟩ := exists_message_of_carries control step tail
        have payload : f.body = f.payload := Frame.body_of_ne_close (by intro h; simp [h, Opcode.isControl, Opcode.code] at control)
        have fits := messagesFit d mem
        simp only [Bool.false_eq_true, if_false, payload]
        omega
      · simpa [control] using controlFits f (by simp) control
    obtain ⟨e', resting', same, read⟩ :=
      resting.receive_frame step (addressable f (by simp)) limit (fs.flatMap Frame.encode)
    rw [List.flatMap_cons, read, ih resting' tail (fun g mem => addressable g (by simp [mem]))]
    · intro g mem control
      rw [same]
      exact controlFits g (by simp [mem]) control
    · intro d mem
      rw [same]
      exact messagesFit d (List.mem_append_right _ mem)

end Engine

/-- A fresh engine, on either side and with any size limit, given the frames of a well-formed
stream one after another, reports exactly the messages, pings, pongs and closes the stream carries,
in order, and no error: each message whole, once, and each close with its status, or with the
normal status when the frame carries neither status nor payload. Each frame must be addressable,
and each control frame's body and each message within the limit. -/
theorem receiving_encoded_frames_reports_what_they_carry (client : Bool) (limit : Nat) (fs : List Frame)
    (evs : List Event) (wellFormed : carried none fs = some evs)
    (addressable : ∀ f ∈ fs, f.encode.length ≤ wordMax)
    (controlFits : ∀ f ∈ fs, f.opcode.isControl = true → f.body.length ≤ limit)
    (messagesFit : ∀ d, Event.message d ∈ evs → d.length ≤ limit) :
    ((Engine.fresh client limit).receive (fs.flatMap Frame.encode)).1 = evs ∧
      ∀ text, Event.error text ∉ ((Engine.fresh client limit).receive (fs.flatMap Frame.encode)).1 := by
  have reported := (Engine.resting_fresh client limit).receive_frames wellFormed addressable controlFits
    messagesFit
  exact ⟨reported, by rw [reported]; exact error_not_mem_carried wellFormed⟩

/-- A text message in two fragments around a ping, then a close with a status, read back. -/
theorem fragmented_message_around_ping_reads_back :
    ((Engine.fresh false 8).receive (List.flatMap Frame.encode
        [⟨.text, false, some ⟨1, 2, 3, 4⟩, [104], 0⟩, ⟨.ping, true, none, [7], 0⟩,
          ⟨.continuation, true, some ⟨5, 6, 7, 8⟩, [105], 0⟩, ⟨.close, true, none, [], 1001⟩])).1 =
        ([.ping [7], .message [104, 105], .close [] 1001] : List Event) ∧
      ∀ text, Event.error text ∉ ((Engine.fresh false 8).receive (List.flatMap Frame.encode
        [⟨.text, false, some ⟨1, 2, 3, 4⟩, [104], 0⟩, ⟨.ping, true, none, [7], 0⟩,
          ⟨.continuation, true, some ⟨5, 6, 7, 8⟩, [105], 0⟩, ⟨.close, true, none, [], 1001⟩])).1 :=
  receiving_encoded_frames_reports_what_they_carry false 8 _ _ (by decide) (by decide) (by decide)
    (by simp)

end Switchboard.WebSocket