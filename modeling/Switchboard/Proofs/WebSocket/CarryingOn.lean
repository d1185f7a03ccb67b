import Mathlib
import Switchboard.Proofs.WebSocket.SizeLimit
/-!
# What a continuation frame carries on

The engine forgets the opcode of the last data frame only on a size-limit error or a clear, so a
final continuation frame is delivered whenever a data frame came before it
(`Engine.BetweenFrames.receive_finalContinuation`).
-/
namespace Switchboard.WebSocket

namespace Frame

def Starts (f : Frame) : Prop := f.opcode = .text ∨ f.opcode = .binary

instance : DecidablePred Starts := fun f => inferInstanceAs (Decidable (f.opcode = .text ∨ f.opcode = .binary))

theorem length_body_le (f : Frame) : f.body.length ≤ f.encode.length := by
  have wire : (f.key.apply f.body).length = f.body.length := Mask.length_applyFrom _ _ _
  simp only [f.encode_eq, List.length_cons, List.length_append, wire]
  omega

end Frame

namespace Engine

def CarriesOn (e : Engine) : Prop := e.opcode = 1 ∨ e.opcode = 2

instance : DecidablePred CarriesOn := fun e => inferInstanceAs (Decidable (e.opcode = 1 ∨ e.opcode = 2))

@[simp] theorem opcode_settle (e : Engine) : e.settle.opcode = e.opcode := by
  cases received : e.frameReceived <;> cases final : e.finalReceived <;>
    simp [settle, received, final, resetFrame]

theorem frame_settle_of_received {e : Engine} (received : e.frameReceived = true) : e.settle.frame = [] := by
  cases final : e.finalReceived <;> simp [settle, received, final, resetFrame]

theorem opcode_deliver (e : Engine) (f : Frame) :
    (e.deliver f.first f.body).2.opcode = if f.Starts then f.opcode.code else e.opcode := by
  cases opcode : f.opcode
  case continuation =>
    rw [Frame.body_of_ne_close (by simp [opcode])]
    unfold deliver
    simp only [f.code_first, opcode, Opcode.code, Opcode.ofCode?]
    split <;> simp [Frame.Starts, opcode]
  case text => simp [deliver_start e (Or.inl opcode), Frame.Starts, opcode]
  case binary => simp [deliver_start e (Or.inr opcode), Frame.Starts, opcode]
  case close => simp [deliver_close e opcode, Frame.Starts, opcode]
  case ping => simp [deliver_ping e opcode, Frame.Starts, opcode]
  case pong => simp [deliver_pong e opcode, Frame.Starts, opcode]

theorem carriesOn_deliver (e : Engine) (f : Frame) : (e.deliver f.first f.body).2.CarriesOn ↔ f.Starts ∨ e.CarriesOn := by
  rw [CarriesOn, opcode_deliver]
  by_cases starts : f.Starts
  · rcases starts with text | binary
    · simp [Frame.Starts, CarriesOn, text, Opcode.code]
    · simp [Frame.Starts, CarriesOn, binary, Opcode.code]
  · simp [starts, CarriesOn]

theorem deliver_finalContinuation (e : Engine) {g : Frame} (continuation : g.opcode = .continuation)
    (fin : g.fin = true) :
    (e.deliver g.first g.body).1 =
      [if e.opcode = 1 ∨ e.opcode = 2 then .message (e.message ++ g.payload)
       else .error "continuation frame without a message"] := by
  rw [Frame.body_of_ne_close (by simp [continuation])]
  unfold deliver
  simp only [g.code_first, continuation, g.fin_first, fin, Opcode.code, Opcode.ofCode?]
  by_cases carries : e.opcode = 1 ∨ e.opcode = 2 <;> simp [carries]

/-- An engine between whole frames, with the word range as its size limit: ready for bytes and
holding none of a frame. -/
structure BetweenFrames (e : Engine) : Prop where
  ready : e.Ready
  empty : e.settle.frame = []
  unlimited : wordMax ≤ e.maxMessageSize

theorem betweenFrames_fresh (client : Bool) : (fresh client).BetweenFrames :=
  ⟨ready_fresh client wordMax, rfl, le_refl _⟩

theorem BetweenFrames.fits {e : Engine} (between : e.BetweenFrames) {f : Frame}
    (addressable : f.encode.length ≤ wordMax) : e.settle.messageSize f.first f.body.length ≤ e.settle.maxMessageSize := by
  rw [maxMessageSize_settle]
  exact (messageSize_le_wordMax _ _ (f.length_body_le.trans addressable)).trans between.unlimited

theorem BetweenFrames.receive_encode {e : Engine} (between : e.BetweenFrames) {f : Frame}
    (addressable : f.encode.length ≤ wordMax) :
    e.receive f.encode = ({ e.settle with frame := f.encode, frameReceived := true } : Engine).deliver f.first f.body := by
  have alone := receive_encode_append between.ready between.empty addressable (between.fits addressable) []
  simpa only [List.append_nil, receive_nil] using alone

theorem BetweenFrames.clear {e : Engine} (between : e.BetweenFrames) : e.clear.BetweenFrames ∧ ¬ e.clear.CarriesOn :=
  ⟨⟨Or.inr ⟨rfl, by simp [Engine.clear, resetFrame, Incomplete]⟩, by simp [Engine.clear, settle, resetFrame],
    between.unlimited⟩, by simp [CarriesOn, Engine.clear, resetFrame]⟩

/-- An engine between frames that is given a whole addressable frame deals with it at once, and is
between frames after it, carrying on exactly when the frame starts a message or it carried on
before; reading goes on after the frame. -/
theorem BetweenFrames.receive_frame {e : Engine} (between : e.BetweenFrames) {f : Frame}
    (addressable : f.encode.length ≤ wordMax) (rest : List UInt8) :
    (e.receive f.encode).2.BetweenFrames ∧ ((e.receive f.encode).2.CarriesOn ↔ f.Starts ∨ e.CarriesOn) ∧
      e.receive (f.encode ++ rest) =
        ((e.receive f.encode).1 ++ ((e.receive f.encode).2.receive rest).1, ((e.receive f.encode).2.receive rest).2) := by
  rw [between.receive_encode addressable,
    receive_encode_append between.ready between.empty addressable (between.fits addressable) rest]
  refine ⟨⟨Or.inl ?_, frame_settle_of_received ?_, ?_⟩, ?_, rfl⟩
  · rw [frameReceived_deliver]
  · rw [frameReceived_deliver]
  · rw [maxMessageSize_deliver]
    exact (maxMessageSize_settle e).symm ▸ between.unlimited
  · rw [carriesOn_deliver]
    simp [CarriesOn]

/-- An engine between frames given the frames of a stream, each whole and addressable, deals with
them one after another and reads on after them; it is between frames after them, carrying on
exactly when one of them starts a message or it carried on before. -/
theorem BetweenFrames.receive_frames {e : Engine} (between : e.BetweenFrames) {fs : List Frame}
    (addressable : ∀ f ∈ fs, f.encode.length ≤ wordMax) (rest : List UInt8) :
    (e.receive (fs.flatMap Frame.encode)).2.BetweenFrames ∧
      ((e.receive (fs.flatMap Frame.encode)).2.CarriesOn ↔ (∃ f ∈ fs, f.Starts) ∨ e.CarriesOn) ∧
      e.receive (fs.flatMap Frame.encode ++ rest) =
        ((e.receive (fs.flatMap Frame.encode)).1 ++ ((e.receive (fs.flatMap Frame.encode)).2.receive rest).1,
          ((e.receive (fs.flatMap Frame.encode)).2.receive rest).2) := by
  -- induction on the frames; `BetweenFrames` carries over each one
  induction fs generalizing e with
  | nil => simp [receive_nil, between]
  | cons f fs ih =>
    have short := addressable f List.mem_cons_self
    obtain ⟨between', carries', -⟩ := between.receive_frame short []
    obtain ⟨between'', carries'', later⟩ :=
      ih between' (fun g mem => addressable g (List.mem_cons_of_mem f mem))
    have head := (between.receive_frame short (fs.flatMap Frame.encode)).2.2
    have whole := (between.receive_frame short (fs.flatMap Frame.encode ++ rest)).2.2
    rw [List.flatMap_cons, List.append_assoc, whole, later, head]
    refine ⟨between'', ?_, by simp⟩
    rw [carries'', carries']
    simp only [List.mem_cons, exists_eq_or_imp]
    exact or_left_comm.trans or_assoc.symm

/-- An engine between frames given a whole addressable final continuation frame delivers the
message under way with it when it carries one on, and reports the error otherwise. -/
theorem BetweenFrames.receive_finalContinuation {e : Engine} (between : e.BetweenFrames) {g : Frame}
    (continuation : g.opcode = .continuation) (fin : g.fin = true) (addressable : g.encode.length ≤ wordMax) :
    (e.receive g.encode).1 =
      [if e.CarriesOn then .message (e.settle.message ++ g.payload)
       else .error "continuation frame without a message"] := by
  rw [between.receive_encode addressable, deliver_finalContinuation _ continuation fin]
  by_cases carries : e.CarriesOn
  · rw [if_pos carries, if_pos (by simpa [CarriesOn] using carries)]
  · rw [if_neg carries, if_neg (by simpa [CarriesOn] using carries)]

end Engine

/-- A final continuation frame is an error only when no text or binary frame came before it. An
engine between frames, with the word range as its size limit, given the frames of any stream and
then a final continuation frame, each whole and addressable, reports for the stream what it reports
for it alone and for the continuation frame one event: the message under way with the frame's
payload when some frame of the stream starts a message or the engine carried one on before, and the
error otherwise. A message delivered in the stream does not end what the engine carries on. -/
theorem final_continuation_errs_only_before_any_start (e : Engine) (between : e.BetweenFrames) (fs : List Frame)
    (addressable : ∀ f ∈ fs, f.encode.length ≤ wordMax) (g : Frame) (continuation : g.opcode = .continuation)
    (fin : g.fin = true) (short : g.encode.length ≤ wordMax) :
    (e.receive (fs.flatMap Frame.encode ++ g.encode)).1 =
      (e.receive (fs.flatMap Frame.encode)).1 ++
        [if (∃ f ∈ fs, f.Starts) ∨ e.CarriesOn then
          .message ((e.receive (fs.flatMap Frame.encode)).2.settle.message ++ g.payload)
         else .error "continuation frame without a message"] := by
  obtain ⟨between', carries, read⟩ := between.receive_frames addressable g.encode
  rw [read, between'.receive_finalContinuation continuation fin short]
  simp only [carries]

/-- A final continuation frame after a ping, on a fresh engine, is an error. -/
theorem final_continuation_after_a_ping_errs :
    ((Engine.fresh false).receive ([⟨.ping, true, none, [], 0⟩].flatMap Frame.encode ++
        Frame.encode ⟨.continuation, true, none, [98], 0⟩)).1 =
      ((Engine.fresh false).receive ([⟨.ping, true, none, [], 0⟩].flatMap Frame.encode)).1 ++
        [.error "continuation frame without a message"] := by
  rw [final_continuation_errs_only_before_any_start (Engine.fresh false) (Engine.betweenFrames_fresh false) _
    (by decide) _ rfl rfl (by decide)]
  rw [if_neg (by decide)]

/-- A text message delivered whole does not end what a continuation frame carries on: a final text
frame holding "a" and then a final continuation frame holding "b" are two messages. -/
theorem continuation_after_a_whole_message_is_delivered :
    ((Engine.fresh false).receive [0x81, 1, 97, 0x80, 1, 98]).1 = [.message [97], .message [98]] := by
  decide +kernel

end Switchboard.WebSocket
