import Switchboard.Proofs.WebSocket.RoundTrip
/-!
# The message size limit

Between calls an engine holds at most its limit's bytes of a message and of a frame
(`Engine.WithinLimit`, kept by `Engine.WithinLimit.receiveChunks`), and a frame past the limit is
reported by the call that completes its header (`Engine.receive_oversized`).
-/
namespace Switchboard.WebSocket

/-- What an event hands over is within a limit: a message, ping or pong payload has at most
`limit` bytes, and so has the payload of a close frame, its two status bytes included. A close
event whose frame carried no status bytes came from a payload of at most one byte. -/
def Event.Within (limit : Nat) : Event → Prop
  | .message d | .ping d | .pong d => d.length ≤ limit
  | .close d status => d.length + 2 ≤ limit ∨ (d.length ≤ 1 ∧ d.length ≤ limit ∧ status = closeNormal)
  | .error _ => True

theorem Opcode.eq_code_of_ofCode? {n : Nat} {o : Opcode} (h : Opcode.ofCode? n = some o) : n = o.code := by
  unfold Opcode.ofCode? at h
  split at h <;> cases h <;> rfl

theorem data_of_code_le_two (first : UInt8) (low : (first &&& 0x0F).toNat ≤ 2) :
    (first &&& 0x08 == 0) = true := by
  have within : first &&& 0x08 = (first &&& 0x0F) &&& 0x08 := by
    rw [UInt8.and_assoc]
    rfl
  generalize first &&& 0x0F = x at within low
  have small : x = 0 ∨ x = 1 ∨ x = 2 := by
    rcases (by omega : x.toNat = 0 ∨ x.toNat = 1 ∨ x.toNat = 2) with h | h | h <;>
      simp [← UInt8.toNat_inj, h]
  rw [within]
  rcases small with rfl | rfl | rfl <;> rfl

theorem headerSize_le (second : UInt8) : headerSize second ≤ 14 := by
  have extended : extendedSize second ≤ 8 := by
    unfold extendedSize
    dsimp only
    split_ifs <;> omega
  unfold headerSize
  split_ifs <;> omega

namespace Engine

/-- The size a frame of payload `length` brings its message to, without saturation: the message
so far and the payload for a data frame, the payload alone for a control frame. -/
def sizeAfter (e : Engine) (first : UInt8) (length : Nat) : Nat :=
  if first &&& 0x08 == 0 then e.message.length + length else length

theorem messageSize_le_iff (e : Engine) (first : UInt8) (length : Nat) (below : e.maxMessageSize < wordMax) :
    e.messageSize first length ≤ e.maxMessageSize ↔ e.sizeAfter first length ≤ e.maxMessageSize := by
  unfold messageSize sizeAfter
  split <;> omega

theorem messageSize_le_wordMax (e : Engine) (first : UInt8) {length : Nat} (addressable : length ≤ wordMax) :
    e.messageSize first length ≤ wordMax := by
  unfold messageSize
  split <;> omega

theorem length_le_of_messageSize_le {e : Engine} {first : UInt8} {length : Nat}
    (fits : e.messageSize first length ≤ e.maxMessageSize) (addressable : length ≤ wordMax) :
    length ≤ e.maxMessageSize := by
  unfold messageSize at fits
  split at fits <;> omega

theorem Incomplete.frame_le {e : Engine} (incomplete : e.Incomplete) {first second : UInt8}
    {rest : List UInt8} (held : e.frame = first :: second :: rest) :
    e.frame.length ≤ headerSize second + e.maxMessageSize := by
  unfold Incomplete at incomplete
  rw [held] at incomplete ⊢
  rcases incomplete with short | ⟨addressable, fits, waiting⟩
  · omega
  · have payload := length_le_of_messageSize_le fits (by omega)
    omega

/-- An engine between calls within its limit: ready for bytes, with a message under way of at
most the limit's bytes, and a frame held of at most its header and the limit's bytes. -/
structure WithinLimit (e : Engine) : Prop where
  ready : e.Ready
  message : e.message.length ≤ e.maxMessageSize
  frame : ∀ {first second : UInt8} {rest : List UInt8}, e.frame = first :: second :: rest →
    e.frame.length ≤ headerSize second + e.maxMessageSize

theorem WithinLimit.frame_le {e : Engine} (within : e.WithinLimit) : e.frame.length ≤ 14 + e.maxMessageSize := by
  rcases held : e.frame with _ | ⟨x0, _ | ⟨x1, rest⟩⟩
  case nil => simp
  case cons.nil => simp; omega
  case cons.cons =>
    have bound := within.frame held
    have header := headerSize_le x1
    rw [held] at bound
    omega

theorem withinLimit_fresh (client : Bool) (maxMessageSize : Nat) : (fresh client maxMessageSize).WithinLimit :=
  ⟨ready_fresh client maxMessageSize, Nat.zero_le _, fun held => absurd held (by simp [fresh])⟩

theorem message_settle_le (e : Engine) : e.settle.message.length ≤ e.message.length := by
  cases received : e.frameReceived <;> cases final : e.finalReceived <;>
    simp [settle, received, final, resetFrame]

@[simp] theorem frame_deliver (e : Engine) (first : UInt8) (payload : List UInt8) :
    (e.deliver first payload).2.frame = e.frame := by
  unfold deliver
  dsimp only
  split
  · rfl
  · rfl
  · split <;> rfl
  · split <;> split <;> rfl
  · rfl

@[simp] theorem maxMessageSize_deliver (e : Engine) (first : UInt8) (payload : List UInt8) :
    (e.deliver first payload).2.maxMessageSize = e.maxMessageSize := by
  unfold deliver
  dsimp only
  split
  · rfl
  · rfl
  · split <;> rfl
  · split <;> split <;> rfl
  · rfl

theorem deliver_within (e : Engine) (first : UInt8) (payload : List UInt8) {limit : Nat}
    (message : e.message.length ≤ limit) (fits : payload.length ≤ limit)
    (grows : (first &&& 0x08 == 0) = true → e.message.length + payload.length ≤ limit) :
    (e.deliver first payload).2.message.length ≤ limit ∧
      ∀ ev ∈ (e.deliver first payload).1, ev.Within limit := by
  unfold deliver
  dsimp only
  split
  next => exact ⟨message, by simpa [Event.Within] using fits⟩
  next => exact ⟨message, by simpa [Event.Within] using fits⟩
  next =>
    -- a close frame's payload starts with the status bytes when it has two bytes or more
    refine ⟨by split <;> exact message, ?_⟩
    split
    next a b rest => simp only [List.length_cons] at fits; simp [Event.Within]; omega
    next short =>
      have one : payload.length ≤ 1 := by
        rcases payload with _ | ⟨x, _ | ⟨y, rest⟩⟩
        · simp
        · simp
        · exact absurd rfl (short x y rest)
      simp [Event.Within, one, fits]
  next o notPing notPong notClose found =>
    -- a data frame: its opcode is continuation, text or binary, so it counts with its message
    have code := Opcode.eq_code_of_ofCode? found
    have total := grows (data_of_code_le_two first (by cases o <;> simp_all [Opcode.code]))
    split_ifs <;> simp [Event.Within] <;> omega
  next => exact ⟨message, by simp [Event.Within]⟩

theorem gather_short (e : Engine) {x0 x1 : UInt8} {header : List UInt8}
    (short : (x0 :: x1 :: header).length < headerSize x1) :
    e.gather (x0 :: x1 :: header) = ([], { e with frame := x0 :: x1 :: header }) := by
  simp only [gather]
  rw [if_pos short]

theorem gather_unaddressable (e : Engine) {x0 x1 : UInt8} {header : List UInt8}
    (complete : headerSize x1 ≤ (x0 :: x1 :: header).length)
    (unaddressable : wordMax < payloadLength x1 header + headerSize x1) (b : List UInt8) :
    e.gather (x0 :: x1 :: header ++ b) =
      ([.error s!"frame length {payloadLength x1 header} is not addressable"], e.resetFrame) := by
  have two := two_add_extendedSize_le x1
  simp only [List.length_cons] at complete
  have length : payloadLength x1 (header ++ b) = payloadLength x1 header :=
    payloadLength_append x1 b (by omega)
  simp [gather, length, unaddressable]
  omega

theorem gather_oversized (e : Engine) {x0 x1 : UInt8} {header : List UInt8}
    (complete : headerSize x1 ≤ (x0 :: x1 :: header).length)
    (addressable : payloadLength x1 header + headerSize x1 ≤ wordMax)
    (past : e.maxMessageSize < e.messageSize x0 (payloadLength x1 header)) (b : List UInt8) :
    e.gather (x0 :: x1 :: header ++ b) =
      ([.error s!"message of {e.messageSize x0 (payloadLength x1 header)} bytes exceeds the limit of {e.maxMessageSize}"],
        { e.resetFrame with opcode := 0, message := [] }) := by
  have two := two_add_extendedSize_le x1
  simp only [List.length_cons] at complete
  have length : payloadLength x1 (header ++ b) = payloadLength x1 header :=
    payloadLength_append x1 b (by omega)
  simp [gather, length, Nat.not_lt.2 addressable, past]
  omega

theorem gather_waiting (e : Engine) {x0 x1 : UInt8} {header : List UInt8}
    (complete : headerSize x1 ≤ (x0 :: x1 :: header).length)
    (addressable : payloadLength x1 header + headerSize x1 ≤ wordMax)
    (fits : e.messageSize x0 (payloadLength x1 header) ≤ e.maxMessageSize)
    (waiting : (x0 :: x1 :: header).length < payloadLength x1 header + headerSize x1) :
    e.gather (x0 :: x1 :: header) = ([], { e with frame := x0 :: x1 :: header }) := by
  simp only [List.length_cons] at complete waiting
  simp [gather, Nat.not_lt.2 complete, Nat.not_lt.2 addressable, Nat.not_lt.2 fits, waiting]

/-- What reading a frame from some bytes can do: wait for more, report a frame that cannot be
addressed or that goes past the limit, or deal with a whole frame that passed the checks and read
on after it. -/
theorem gather_outcomes (e : Engine) (s : List UInt8) :
    (e.gather s = ([], { e with frame := s }) ∧ ({ e with frame := s } : Engine).Incomplete) ∨
    (∃ n : Nat, e.gather s = ([.error s!"frame length {n} is not addressable"], e.resetFrame)) ∨
    (∃ n : Nat, n ≤ wordMax ∧ e.maxMessageSize < n ∧
      e.gather s = ([.error s!"message of {n} bytes exceeds the limit of {e.maxMessageSize}"],
        { e.resetFrame with opcode := 0, message := [] })) ∨
    (∃ x0 x1 header, s = x0 :: x1 :: header ∧
      payloadLength x1 header + headerSize x1 ≤ (x0 :: x1 :: header).length ∧
      payloadLength x1 header + headerSize x1 ≤ wordMax ∧
      e.messageSize x0 (payloadLength x1 header) ≤ e.maxMessageSize ∧
      e.gather s =
        let r := ({ e with frame := (x0 :: x1 :: header).take (payloadLength x1 header + headerSize x1),
                           frameReceived := true } : Engine).completeFrame x0 (headerSize x1) (headerMask x1 header)
        let more := r.2.receive ((x0 :: x1 :: header).drop (payloadLength x1 header + headerSize x1))
        (r.1 ++ more.1, more.2)) := by
  rcases s with _ | ⟨x0, _ | ⟨x1, header⟩⟩
  case nil => exact Or.inl ⟨rfl, trivial⟩
  case cons.nil => exact Or.inl ⟨rfl, trivial⟩
  case cons.cons =>
    by_cases short : (x0 :: x1 :: header).length < headerSize x1
    · exact Or.inl ⟨gather_short e short, Or.inl short⟩
    have complete := Nat.le_of_not_lt short
    by_cases unaddressable : wordMax < payloadLength x1 header + headerSize x1
    · right; left
      exact ⟨_, by simpa using gather_unaddressable e complete unaddressable []⟩
    have addressable := Nat.le_of_not_lt unaddressable
    by_cases past : e.maxMessageSize < e.messageSize x0 (payloadLength x1 header)
    · right; right; left
      exact ⟨_, messageSize_le_wordMax e x0 (by omega), past,
        by simpa using gather_oversized e complete addressable past []⟩
    have fits := Nat.le_of_not_lt past
    by_cases waiting : (x0 :: x1 :: header).length < payloadLength x1 header + headerSize x1
    · left
      exact ⟨gather_waiting e complete addressable fits waiting, Or.inr ⟨addressable, fits, waiting⟩⟩
    · right; right; right
      have whole := Nat.le_of_not_lt waiting
      refine ⟨x0, x1, header, rfl, whole, addressable, fits, ?_⟩
      simpa using gather_whole e unaddressable past whole []

theorem withinLimit_completeFrame {e : Engine} (below : e.maxMessageSize < wordMax)
    (message : e.message.length ≤ e.maxMessageSize) (received : e.frameReceived = true)
    {x0 x1 : UInt8} {header : List UInt8}
    (frame : e.frame = (x0 :: x1 :: header).take (payloadLength x1 header + headerSize x1))
    (whole : payloadLength x1 header + headerSize x1 ≤ (x0 :: x1 :: header).length)
    (addressable : payloadLength x1 header + headerSize x1 ≤ wordMax)
    (fits : e.messageSize x0 (payloadLength x1 header) ≤ e.maxMessageSize) :
    (e.completeFrame x0 (headerSize x1) (headerMask x1 header)).2.WithinLimit ∧
      (e.completeFrame x0 (headerSize x1) (headerMask x1 header)).2.maxMessageSize = e.maxMessageSize ∧
      ∀ ev ∈ (e.completeFrame x0 (headerSize x1) (headerMask x1 header)).1, ev.Within e.maxMessageSize := by
  have two := two_add_extendedSize_le x1
  have taken : (x0 :: x1 :: header).take (payloadLength x1 header + headerSize x1) =
      x0 :: x1 :: header.take (payloadLength x1 header + headerSize x1 - 2) := by
    rw [show payloadLength x1 header + headerSize x1 = payloadLength x1 header + headerSize x1 - 2 + 2 by omega]
    rfl
  have frameLength : e.frame.length = payloadLength x1 header + headerSize x1 := by
    rw [frame, List.length_take, Nat.min_eq_left whole]
  have payload : ((headerMask x1 header).apply (e.frame.drop (headerSize x1))).length = payloadLength x1 header := by
    rw [Mask.apply, Mask.length_applyFrom, List.length_drop, frameLength]
    omega
  have room := length_le_of_messageSize_le fits (by omega)
  have grows : (x0 &&& 0x08 == 0) = true → e.message.length + payloadLength x1 header ≤ e.maxMessageSize := by
    intro data
    simpa [sizeAfter, data] using (messageSize_le_iff e x0 _ below).1 fits
  obtain ⟨kept, handed⟩ := deliver_within e x0 ((headerMask x1 header).apply (e.frame.drop (headerSize x1)))
    message (by rw [payload]; exact room) (by rw [payload]; exact grows)
  refine ⟨⟨Or.inl (by rw [completeFrame, frameReceived_deliver, received]), by simpa [completeFrame] using kept, ?_⟩,
    maxMessageSize_deliver _ _ _, handed⟩
  intro first second rest held
  simp only [completeFrame, frame_deliver, maxMessageSize_deliver] at held ⊢
  rw [frame, taken] at held
  obtain ⟨-, rfl, -⟩ : x0 = first ∧ x1 = second ∧ _ := by simpa using held
  omega

theorem maxMessageSize_receive {e : Engine} (ready : e.Ready) (d : List UInt8) :
    (e.receive d).2.maxMessageSize = e.maxMessageSize := by
  by_cases empty : d = []
  · rw [empty, receive_nil]
  rw [receive_eq_settle ready empty, ← maxMessageSize_settle e]
  rcases gather_outcomes e.settle (e.settle.frame ++ d) with
    ⟨waiting, -⟩ | ⟨n, unaddressable⟩ | ⟨n, -, -, oversized⟩ | ⟨x0, x1, header, split, whole, -, -, read⟩
  · rw [waiting]
  · rw [unaddressable]; rfl
  · rw [oversized]; rfl
  · rw [read]
    have shorter := length_drop_lt ready split whole
    dsimp only
    rw [maxMessageSize_receive (Or.inl (frameReceived_deliver _ _ _)), completeFrame, maxMessageSize_deliver]
termination_by d.length
decreasing_by exact shorter

/-- Receiving keeps an engine within its limit, and hands over only what is within it, when the
limit is below the word range. -/
theorem WithinLimit.receive {e : Engine} (within : e.WithinLimit) (below : e.maxMessageSize < wordMax)
    (d : List UInt8) :
    (e.receive d).2.WithinLimit ∧ ∀ ev ∈ (e.receive d).1, ev.Within e.maxMessageSize := by
  by_cases empty : d = []
  · rw [empty, receive_nil]
    exact ⟨within, by simp⟩
  have limit := maxMessageSize_settle e
  have message : e.settle.message.length ≤ e.maxMessageSize := Nat.le_trans (message_settle_le e) within.message
  have final := finalReceived_settle e
  rw [receive_eq_settle within.ready empty]
  rcases gather_outcomes e.settle (e.settle.frame ++ d) with
    ⟨waiting, incomplete⟩ | ⟨n, unaddressable⟩ | ⟨n, -, -, oversized⟩ |
      ⟨x0, x1, header, split, whole, addressable, fits, read⟩
  · -- still waiting: a complete header held has passed the check
    rw [waiting]
    refine ⟨⟨Or.inr ⟨final, incomplete⟩, by simpa [limit] using message, fun held => ?_⟩, by simp⟩
    simpa [limit] using incomplete.frame_le held
  · rw [unaddressable]
    refine ⟨⟨Or.inr ⟨by simpa [resetFrame] using final, by simp [Incomplete, resetFrame]⟩,
      by simpa [resetFrame, limit] using message, fun held => by simp [resetFrame] at held⟩, by simp [Event.Within]⟩
  · rw [oversized]
    refine ⟨⟨Or.inr ⟨by simpa [resetFrame] using final, by simp [Incomplete, resetFrame]⟩,
      by simp, fun held => by simp [resetFrame] at held⟩, by simp [Event.Within]⟩
  · -- a whole frame: dealing with it keeps the limit, and reading goes on after it
    rw [read]
    have shorter := length_drop_lt within.ready split whole
    obtain ⟨within', same, handed⟩ := withinLimit_completeFrame
      (e := { e.settle with frame := (x0 :: x1 :: header).take (payloadLength x1 header + headerSize x1),
                            frameReceived := true })
      (by simpa [limit] using below) (by simpa [limit] using message) rfl rfl whole addressable fits
    have kept := same.trans limit
    obtain ⟨after, later⟩ := WithinLimit.receive within' (by rw [kept]; exact below)
      ((x0 :: x1 :: header).drop (payloadLength x1 header + headerSize x1))
    refine ⟨after, fun ev mem => ?_⟩
    rcases List.mem_append.1 mem with here | there
    · simpa [limit] using handed ev here
    · simpa [kept] using later ev there
termination_by d.length
decreasing_by exact shorter

/-- Calls in a row keep an engine within its limit, below the word range, and hand over only what
is within it. -/
theorem WithinLimit.receiveChunks {e : Engine} (within : e.WithinLimit) (below : e.maxMessageSize < wordMax)
    (cs : List (List UInt8)) :
    (e.receiveChunks cs).2.WithinLimit ∧ (e.receiveChunks cs).2.maxMessageSize = e.maxMessageSize ∧
      ∀ ev ∈ (e.receiveChunks cs).1, ev.Within e.maxMessageSize := by
  -- induction on the calls; `WithinLimit` and the limit itself carry over from one to the next
  induction cs generalizing e with
  | nil => exact ⟨within, rfl, by simp [Engine.receiveChunks]⟩
  | cons c cs ih =>
    obtain ⟨within', handed⟩ := within.receive below c
    have same := maxMessageSize_receive within.ready c
    obtain ⟨after, same', later⟩ := ih within' (by rw [same]; exact below)
    refine ⟨after, same'.trans same, ?_⟩
    intro ev mem
    simp only [Engine.receiveChunks, List.mem_append] at mem
    rcases mem with here | there
    · exact handed ev here
    · rw [← same]
      exact later ev there

/-- A frame past the limit is reported by the call that completes its header: when the bytes held
followed by the bytes given begin with the whole header of an addressable frame that takes its
message past the limit, the call reports exactly that, and the engine keeps no byte of the frame
and no message. Every frame is read so, whether it starts a call or follows whole frames in it. -/
theorem receive_oversized {e : Engine} (ready : e.Ready) {d : List UInt8} {x0 x1 : UInt8}
    {header b : List UInt8} (held : e.settle.frame ++ d = x0 :: x1 :: header ++ b)
    (complete : (x0 :: x1 :: header).length = headerSize x1)
    (addressable : payloadLength x1 header + headerSize x1 ≤ wordMax)
    (past : e.maxMessageSize < e.settle.messageSize x0 (payloadLength x1 header)) :
    e.receive d = ([.error s!"message of {e.settle.messageSize x0 (payloadLength x1 header)} bytes exceeds the limit of {e.maxMessageSize}"],
      { e.settle.resetFrame with opcode := 0, message := [] }) := by
  have two := two_add_extendedSize_le x1
  have nonempty : d ≠ [] := by
    -- the engine never holds the whole header of a frame past the limit
    rintro rfl
    have incomplete := incomplete_settle ready
    rw [List.append_nil] at held
    unfold Incomplete at incomplete
    rw [held] at incomplete
    simp only [List.cons_append, List.length_cons, List.length_append] at incomplete complete
    have length : payloadLength x1 (header ++ b) = payloadLength x1 header :=
      payloadLength_append x1 b (by omega)
    rw [length, maxMessageSize_settle] at incomplete
    omega
  rw [receive_eq_settle ready nonempty, held, ← maxMessageSize_settle e,
    gather_oversized e.settle (Nat.le_of_eq complete.symm) addressable (by rwa [maxMessageSize_settle]) b]

theorem fresh_receiveChunks_within (client : Bool) {limit : Nat} (below : limit < wordMax)
    (cs : List (List UInt8)) :
    ((fresh client limit).receiveChunks cs).2.WithinLimit ∧
      ((fresh client limit).receiveChunks cs).2.maxMessageSize = limit ∧
      ∀ ev ∈ ((fresh client limit).receiveChunks cs).1, ev.Within limit :=
  (withinLimit_fresh client limit).receiveChunks below cs

theorem Resting.receiveChunks_frames {e : Engine} {pending : Option (List UInt8)} (resting : e.Resting pending)
    {fs : List Frame} {evs : List Event} (carried : carried pending fs = some evs)
    (addressable : ∀ f ∈ fs, f.encode.length ≤ wordMax)
    (controlFits : ∀ f ∈ fs, f.opcode.isControl = true → f.body.length ≤ e.maxMessageSize)
    (messagesFit : ∀ d, Event.message d ∈ evs → d.length ≤ e.maxMessageSize)
    {cs : List (List UInt8)} (pieces : cs.flatten = fs.flatMap Frame.encode) :
    (e.receiveChunks cs).1 = evs := by
  have whole := resting.receive_frames carried addressable controlFits messagesFit
  rcases receiveChunks_agrees resting.ready cs with ⟨same, -⟩ | ⟨pre, ev, rest, events, -, fatal, -⟩
  · rw [same, pieces, whole]
  · -- a fatal event is an error, and the stream carries none
    rw [pieces, whole] at events
    obtain ⟨text, rfl⟩ : ∃ text, ev = .error text := by
      cases ev <;> simp_all [Event.IsFatal]
    exact absurd (events ▸ List.mem_append_right pre (List.mem_singleton_self _))
      (error_not_mem_carried carried text)

end Engine

/-- Below the word range, an engine never hands over or keeps more than its size limit. For either
side and every limit, a fresh engine given bytes in any calls: after each call the message under
way has at most the limit's bytes and the frame held at most its header's (at most fourteen) and
the limit's, and every payload handed over, a close frame's status bytes included, is within the
limit. A ready engine, as every engine is between and within calls, reports a frame that takes its
message past the limit, or a control frame over it, in the call that completes the frame's header,
and keeps no byte of the frame and no message. A stream whose messages and control frames are
within the limit, one of exactly the limit's bytes included, is delivered as it carries. -/
theorem engine_keeps_within_its_message_size_limit (client : Bool) (limit : Nat) (below : limit < wordMax) :
    (∀ cs : List (List UInt8),
      ((Engine.fresh client limit).receiveChunks cs).2.message.length ≤ limit ∧
      ((Engine.fresh client limit).receiveChunks cs).2.frame.length ≤ 14 + limit ∧
      (∀ first second rest, ((Engine.fresh client limit).receiveChunks cs).2.frame = first :: second :: rest →
        ((Engine.fresh client limit).receiveChunks cs).2.frame.length ≤ headerSize second + limit) ∧
      ∀ ev ∈ ((Engine.fresh client limit).receiveChunks cs).1, ev.Within limit) ∧
    (∀ e : Engine, e.Ready → e.maxMessageSize = limit →
      ∀ (d : List UInt8) (x0 x1 : UInt8) (header b : List UInt8), e.settle.frame ++ d = x0 :: x1 :: header ++ b →
        (x0 :: x1 :: header).length = headerSize x1 → payloadLength x1 header + headerSize x1 ≤ wordMax →
        limit < e.settle.sizeAfter x0 (payloadLength x1 header) →
        ∃ (n : Nat) (e' : Engine), e.receive d = ([.error s!"message of {n} bytes exceeds the limit of {limit}"], e') ∧
          e'.frame = [] ∧ e'.message = []) ∧
    (∀ (fs : List Frame) (evs : List Event), carried none fs = some evs →
      (∀ f ∈ fs, f.encode.length ≤ wordMax) → (∀ f ∈ fs, f.opcode.isControl = true → f.body.length ≤ limit) →
      (∀ d, Event.message d ∈ evs → d.length ≤ limit) →
      ∀ cs : List (List UInt8), cs.flatten = fs.flatMap Frame.encode →
        ((Engine.fresh client limit).receiveChunks cs).1 = evs) := by
  refine ⟨fun cs => ?_, fun e ready limited d x0 x1 header b held complete addressable past => ?_,
    fun fs evs carried addressable controlFits messagesFit cs pieces =>
      (Engine.resting_fresh client limit).receiveChunks_frames carried addressable controlFits messagesFit pieces⟩
  · obtain ⟨within, same, handed⟩ := Engine.fresh_receiveChunks_within client below cs
    refine ⟨by simpa [same] using within.message, by simpa [same] using within.frame_le,
      fun first second rest frame => by simpa [same] using within.frame frame, handed⟩
  · -- below the word range the saturating check sees the true size
    have settled : e.settle.maxMessageSize = limit := (Engine.maxMessageSize_settle e).trans limited
    have size : e.maxMessageSize < e.settle.messageSize x0 (payloadLength x1 header) := by
      have same := Engine.messageSize_le_iff e.settle x0 (payloadLength x1 header) (by rw [settled]; exact below)
      rw [settled] at same
      rw [limited]
      exact Nat.lt_of_not_le (fun fits => Nat.not_le_of_lt past (same.1 fits))
    rw [Engine.receive_oversized ready held complete addressable size, limited]
    exact ⟨_, _, rfl, rfl, rfl⟩

/-- A four-byte limit delivers a binary message of exactly four bytes, read in two pieces. -/
theorem message_at_the_limit_is_delivered_in_two_pieces :
    4 < wordMax ∧ ((Engine.fresh false 4).receiveChunks [[0x82, 4, 1], [2, 3, 4]]).1 = [.message [1, 2, 3, 4]] :=
  ⟨by decide, (engine_keeps_within_its_message_size_limit false 4 (by decide)).2.2
    [⟨.binary, true, none, [1, 2, 3, 4], 0⟩] _ (by decide) (by decide) (by decide) (by simp) _ (by decide)⟩

/-! ## The largest limit -/

theorem Event.sizeError_ne_unaddressable (n a b : Nat) :
    s!"message of {a} bytes exceeds the limit of {b}" ≠ s!"frame length {n} is not addressable" := by
  intro h
  have chars := congrArg String.toList h
  simp [String.toList_append, toString] at chars

namespace Engine

theorem sizeError_not_mem_receive {e : Engine} (ready : e.Ready) (largest : wordMax ≤ e.maxMessageSize)
    (d : List UInt8) (n m : Nat) :
    Event.error s!"message of {n} bytes exceeds the limit of {m}" ∉ (e.receive d).1 := by
  by_cases empty : d = []
  · rw [empty, receive_nil]
    simp
  rw [receive_eq_settle ready empty]
  rcases gather_outcomes e.settle (e.settle.frame ++ d) with
    ⟨waiting, -⟩ | ⟨k, unaddressable⟩ | ⟨k, bounded, past, -⟩ | ⟨x0, x1, header, split, whole, -, -, read⟩
  · simp [waiting]
  · rw [unaddressable]
    simp only [List.mem_singleton, Event.error.injEq]
    exact Event.sizeError_ne_unaddressable k n m
  · -- the check passes every addressable frame
    rw [maxMessageSize_settle] at past
    omega
  · rw [read]
    have shorter := length_drop_lt ready split (split ▸ whole)
    rw [← split] at shorter
    intro mem
    rcases List.mem_append.1 mem with here | there
    · exact not_isFatal_deliver _ _ _ _ here (Event.isFatal_limit n m)
    · refine sizeError_not_mem_receive (Or.inl (frameReceived_deliver _ _ _)) ?_ _ n m there
      simpa [completeFrame, maxMessageSize_settle] using largest
termination_by d.length
decreasing_by exact shorter

end Engine


namespace Engine

theorem sizeError_not_mem_receiveChunks {e : Engine} (ready : e.Ready) (largest : wordMax ≤ e.maxMessageSize)
    (cs : List (List UInt8)) (n m : Nat) :
    Event.error s!"message of {n} bytes exceeds the limit of {m}" ∉ (e.receiveChunks cs).1 := by
  induction cs generalizing e with
  | nil => simp [Engine.receiveChunks]
  | cons c cs ih =>
    simp only [Engine.receiveChunks, List.mem_append, not_or]
    exact ⟨sizeError_not_mem_receive ready largest c n m,
      ih (ready_receive ready c) (by rw [maxMessageSize_receive ready c]; exact largest)⟩

end Engine

/-- With the largest limit the running total saturates at the limit. After an unfinished text frame
of 11 bytes, a continuation frame whose header announces 2^64 - 11 bytes would take the message to
2^64 bytes, past the limit; the call reports nothing and waits for the payload. -/
theorem largest_limit_lets_a_message_past_it_go_unreported :
    wordMax < 11 + payloadLength 127 [255, 255, 255, 255, 255, 255, 255, 245] ∧
      ((Engine.fresh false wordMax).receive
        (0x01 :: 11 :: List.replicate 11 0 ++ [0x80, 127, 255, 255, 255, 255, 255, 255, 255, 245])).1 = [] := by
  refine ⟨by decide, ?_⟩
  rw [Engine.receive_eq_settle (Engine.ready_fresh false wordMax) (by simp), Engine.settle_of_ready rfl rfl,
    show (Engine.fresh false wordMax).frame = [] from rfl, List.nil_append,
    Engine.gather_whole _ (by decide) (by decide) (by decide)]
  -- the text frame starts a message and hands nothing past; the header that follows passes the check
  dsimp only
  rw [List.append_eq_nil_iff]
  refine ⟨by decide, ?_⟩
  rw [Engine.receive_eq_settle (Or.inl rfl) (by simp)]
  decide

end Switchboard.WebSocket
