import Switchboard.WebSocket.Engine
import Mathlib.Tactic.SplitIfs
/-!
# Receiving a WebSocket stream in pieces

A call is recast as `Engine.gather`, which reads the next frame from the bytes held and given, and
`Engine.settle`. `Engine.Ready` holds between calls, and from the step lemma
`Engine.receive_append` the run lemma `Engine.receiveChunks_agrees` follows: how the bytes are cut
into calls changes nothing up to the first error that drops the rest of a call's bytes.
-/
namespace Switchboard.WebSocket

theorem fill_eq (frame data : List UInt8) (target : Nat) :
    fill frame data target =
      ((frame ++ data).take (max target frame.length), (frame ++ data).drop (max target frame.length)) := by
  have cut : max target frame.length - frame.length = target - frame.length := by omega
  have whole : frame.length ≤ max target frame.length := Nat.le_max_right _ _
  simp only [fill, List.take_append, List.drop_append, cut, List.take_of_length_le whole,
    List.drop_of_length_le whole, List.nil_append]
  by_cases fits : target - frame.length ≤ data.length
  · rw [Nat.min_eq_left fits]
  · rw [Nat.min_eq_right (by omega), List.take_length, List.drop_length,
      List.take_of_length_le (by omega), List.drop_of_length_le (by omega)]

theorem two_add_extendedSize_le (second : UInt8) : 2 + extendedSize second ≤ headerSize second := by
  unfold headerSize
  omega

theorem payloadLength_take (second : UInt8) (header : List UInt8) {m : Nat} (h : extendedSize second ≤ m) :
    payloadLength second (header.take m) = payloadLength second header := by
  unfold payloadLength
  rw [List.take_take, Nat.min_eq_left h]

theorem headerMask_take (second : UInt8) (header : List UInt8) {m : Nat} (h : headerSize second ≤ m + 2) :
    headerMask second (header.take m) = headerMask second header := by
  unfold headerMask
  split
  next masked =>
    have size : headerSize second = 2 + extendedSize second + 4 := by simp [headerSize, masked]
    rw [List.drop_take, Mask.ofBytes_take _ (by omega)]
  next => rfl

namespace Engine

/-- The size of a message depends on the message, not on the frame being gathered or its flags. -/
@[simp] theorem messageSize_withFrame (e : Engine) (frame : List UInt8) (frameReceived finalReceived : Bool)
    (first : UInt8) (length : Nat) :
    ({ e with frame, frameReceived, finalReceived } : Engine).messageSize first length =
      e.messageSize first length := rfl

/-- Reading the next frame from the bytes `s`, the bytes of an incomplete frame held followed by
the bytes given. -/
def gather (e : Engine) (s : List UInt8) : List Event × Engine :=
  match s with
  | first :: second :: header =>
    if s.length < headerSize second then ([], { e with frame := s })
    else
      let length := payloadLength second header
      if wordMax < length + headerSize second then
        ([.error s!"frame length {length} is not addressable"], e.resetFrame)
      else if e.maxMessageSize < e.messageSize first length then
        ([.error s!"message of {e.messageSize first length} bytes exceeds the limit of {e.maxMessageSize}"],
          { e.resetFrame with opcode := 0, message := [] })
      else if s.length < length + headerSize second then ([], { e with frame := s })
      else
        let r := { e with frame := s.take (length + headerSize second), frameReceived := true }.completeFrame
          first (headerSize second) (headerMask second header)
        let more := r.2.receive (s.drop (length + headerSize second))
        (r.1 ++ more.1, more.2)
  | _ => ([], { e with frame := s })


/-- The frame an engine holds is incomplete: its header has not arrived, or it has and passed the
checks but its payload has not. -/
def Incomplete (e : Engine) : Prop :=
  match e.frame with
  | first :: second :: header =>
    e.frame.length < headerSize second ∨
      (payloadLength second header + headerSize second ≤ wordMax ∧
        e.messageSize first (payloadLength second header) ≤ e.maxMessageSize ∧
        e.frame.length < payloadLength second header + headerSize second)
  | _ => True

theorem incomplete_append {e : Engine} (h : e.Incomplete) {d : List UInt8} {first second : UInt8}
    {header : List UInt8} (stream : e.frame ++ d = first :: second :: header) :
    e.frame.length < headerSize second ∨
      (payloadLength second header + headerSize second ≤ wordMax ∧
        e.messageSize first (payloadLength second header) ≤ e.maxMessageSize ∧
        e.frame.length < payloadLength second header + headerSize second) := by
  have two := two_add_extendedSize_le second
  unfold Incomplete at h
  match held : e.frame, h with
  | [], _ => left; simp; omega
  | [_], _ => left; simp; omega
  | y0 :: y1 :: rest, h =>
    rw [held] at stream
    simp only [List.cons_append, List.cons.injEq] at stream
    obtain ⟨rfl, rfl, rfl⟩ := stream
    by_cases short : (y0 :: y1 :: rest).length < headerSize y1
    · exact Or.inl short
    · have same : payloadLength y1 (rest ++ d) = payloadLength y1 rest := by
        rw [← payloadLength_take y1 (rest ++ d) (m := rest.length) (by simp at short; omega),
          List.take_left' rfl]
      rw [same]
      exact Or.inr (h.resolve_left short)

theorem receive_eq_gather (e : Engine) {d : List UInt8} (nonempty : d ≠ [])
    (received : e.frameReceived = false) (final : e.finalReceived = false) (incomplete : e.Incomplete) :
    e.receive d = e.gather (e.frame ++ d) := by
  rw [Engine.receive]
  simp only [received, final, Bool.false_eq_true, if_false, fill_eq, List.take_append_drop,
    List.length_take, List.isEmpty_iff, nonempty]
  have long : e.frame.length + d.length = (e.frame ++ d).length := by simp
  generalize stream : e.frame ++ d = s at long
  obtain ⟨k, hk⟩ : ∃ k, max 2 e.frame.length = k + 2 := ⟨max 2 e.frame.length - 2, by omega⟩
  rw [hk]
  rcases s with _ | ⟨x0, _ | ⟨x1, rest⟩⟩
  case nil =>
    simp only [List.length_nil] at long
    exact absurd (List.eq_nil_of_length_eq_zero (by omega)) nonempty
  case cons.nil => simp [gather, received, final]
  case cons.cons =>
    have stages := incomplete_append incomplete stream
    have two := two_add_extendedSize_le x1
    simp only [List.length_cons] at long
    have held : e.frame.length ≤ k + 2 ∧ (k + 2 = 2 ∨ k + 2 = e.frame.length) := by omega
    have c1 : min (k + 2) (x0 :: x1 :: rest).length = k + 2 := Nat.min_eq_left (by simp; omega)
    simp only [List.take_succ_cons, c1]
    by_cases short : (x0 :: x1 :: rest).length < headerSize x1
    · have c2 : min (max (headerSize x1) (k + 2)) (x0 :: x1 :: rest).length < headerSize x1 := by
        simp at short ⊢; omega
      simp only [c2, if_true, gather, short]
      rw [List.take_of_length_le (by simp at short ⊢; omega)]
      simp [received, final]
    · simp only [List.length_cons] at short
      have c2 : min (max (headerSize x1) (k + 2)) (rest.length + 1 + 1) = max (headerSize x1) (k + 2) :=
        Nat.min_eq_left (by omega)
      have fits : max (headerSize x1) (k + 2) ≤ payloadLength x1 rest + headerSize x1 := by omega
      have c3 : max (payloadLength x1 rest + headerSize x1) (max (headerSize x1) (k + 2)) =
          payloadLength x1 rest + headerSize x1 := Nat.max_eq_left fits
      obtain ⟨m, hm⟩ : ∃ m, max (headerSize x1) (k + 2) = m + 2 := ⟨max (headerSize x1) (k + 2) - 2, by omega⟩
      have header : List.drop 2 (List.take (max (headerSize x1) (k + 2)) (x0 :: x1 :: rest)) = rest.take m := by
        rw [hm, List.take_succ_cons, List.take_succ_cons, List.drop_succ_cons, List.drop_succ_cons,
          List.drop_zero]
      have length : payloadLength x1 (rest.take m) = payloadLength x1 rest :=
        payloadLength_take x1 rest (by omega)
      have mask : headerMask x1 (rest.take m) = headerMask x1 rest := headerMask_take x1 rest (by omega)
      have started : ¬ max (headerSize x1) (k + 2) < headerSize x1 := by omega
      simp only [List.length_cons, c2, c3, started, if_false, header, length, mask, gather, short,
        messageSize_withFrame]
      by_cases addressable : wordMax < payloadLength x1 rest + headerSize x1
      · simp [addressable, Engine.resetFrame, final]
      · simp only [addressable, if_false]
        by_cases limit : e.maxMessageSize < e.messageSize x0 (payloadLength x1 rest)
        · simp [limit, Engine.resetFrame, final]
        · simp only [limit, if_false]
          by_cases waiting : rest.length + 1 + 1 < payloadLength x1 rest + headerSize x1
          · have whole : (x0 :: x1 :: rest).length ≤ payloadLength x1 rest + headerSize x1 := by
              simp only [List.length_cons]; omega
            simp only [Nat.min_eq_right (Nat.le_of_lt waiting), waiting, if_true,
              List.take_of_length_le whole]
            simp [received, final]
          · have progress : (List.drop (payloadLength x1 rest + headerSize x1) (x0 :: x1 :: rest)).length <
                d.length := by
              simp only [List.length_drop, List.length_cons]; omega
            simp only [waiting, progress, if_true, if_false, Nat.min_eq_left (Nat.le_of_not_lt waiting),
              Nat.lt_irrefl]
            simp [final]

theorem frameReceived_deliver (e : Engine) (first : UInt8) (payload : List UInt8) :
    (e.deliver first payload).2.frameReceived = e.frameReceived := by
  unfold deliver
  dsimp only
  split
  · rfl
  · rfl
  · split <;> rfl
  · split <;> split <;> rfl
  · rfl

end Engine

/-- The errors after which an engine drops the rest of the bytes it was given: a frame whose length
cannot be addressed, and a message over the size limit. -/
def Event.IsFatal : Event → Prop
  | .error text => (∃ n : Nat, text = s!"frame length {n} is not addressable") ∨
      ∃ n m : Nat, text = s!"message of {n} bytes exceeds the limit of {m}"
  | _ => False

theorem Event.isFatal_addressable (n : Nat) : (Event.error s!"frame length {n} is not addressable").IsFatal :=
  Or.inl ⟨n, rfl⟩

theorem Event.isFatal_limit (n m : Nat) :
    (Event.error s!"message of {n} bytes exceeds the limit of {m}").IsFatal :=
  Or.inr ⟨n, m, rfl⟩

theorem Event.not_isFatal_continuation : ¬ (Event.error "continuation frame without a message").IsFatal := by
  rintro (⟨n, h⟩ | ⟨n, m, h⟩) <;>
  · have chars := congrArg String.toList h
    simp [String.toList_append, toString] at chars

theorem Event.not_isFatal_unknown (code : String) : ¬ (Event.error s!"unknown opcode {code}").IsFatal := by
  rintro (⟨n, h⟩ | ⟨n, m, h⟩) <;>
  · have chars := congrArg String.toList h
    simp [String.toList_append, toString] at chars

theorem Engine.not_isFatal_deliver (e : Engine) (first : UInt8) (payload : List UInt8) :
    ∀ ev ∈ (e.deliver first payload).1, ¬ ev.IsFatal := by
  unfold deliver
  dsimp only
  split
  · simp [Event.IsFatal]
  · simp [Event.IsFatal]
  · split <;> simp [Event.IsFatal]
  · -- a data frame delivers its message, or reports a continuation with no message to continue
    split_ifs
    all_goals simp only [List.mem_singleton, forall_eq, Event.not_isFatal_continuation, not_false_eq_true]
    all_goals simp [Event.IsFatal]
  · simpa using Event.not_isFatal_unknown _

namespace Engine

/-- The resets a receive makes before it reads: forgetting a frame already dealt with, and a
message already delivered. -/
def settle (e : Engine) : Engine :=
  let e := if e.frameReceived then e.resetFrame else e
  if e.finalReceived then { e with finalReceived := false, message := [] } else e

theorem receive_settle (e : Engine) {d : List UInt8} (nonempty : d ≠ []) :
    e.receive d = e.settle.receive d := by
  cases received : e.frameReceived <;> cases final : e.finalReceived
  · simp [settle, received, final]
  all_goals
    rw [Engine.receive]
    conv => rhs; rw [Engine.receive]
    simp [settle, received, final, resetFrame, nonempty]

/-- An engine ready for more bytes: it has just dealt with a frame, or it holds an incomplete one
and no delivered message is left to forget. -/
def Ready (e : Engine) : Prop := e.frameReceived = true ∨ (e.finalReceived = false ∧ e.Incomplete)

theorem frameReceived_settle (e : Engine) : e.settle.frameReceived = false := by
  cases received : e.frameReceived <;> cases final : e.finalReceived <;>
    simp [settle, received, final, resetFrame]

theorem finalReceived_settle (e : Engine) : e.settle.finalReceived = false := by
  cases received : e.frameReceived <;> cases final : e.finalReceived <;>
    simp [settle, received, final, resetFrame]

theorem maxMessageSize_settle (e : Engine) : e.settle.maxMessageSize = e.maxMessageSize := by
  cases received : e.frameReceived <;> cases final : e.finalReceived <;>
    simp [settle, received, final, resetFrame]

theorem settle_of_ready {e : Engine} (received : e.frameReceived = false) (final : e.finalReceived = false) :
    e.settle = e := by
  simp [settle, received, final]

theorem incomplete_settle {e : Engine} (ready : e.Ready) : e.settle.Incomplete := by
  rcases ready with received | ⟨final, incomplete⟩
  · have empty : e.settle.frame = [] := by
      cases final : e.finalReceived <;> simp [settle, received, final, resetFrame]
    simp [Incomplete, empty]
  · cases received : e.frameReceived
    · rwa [settle_of_ready received final]
    · have empty : e.settle.frame = [] := by simp [settle, received, final, resetFrame]
      simp [Incomplete, empty]

theorem receive_nil (e : Engine) : e.receive [] = ([], e) := by
  rw [Engine.receive]
  rfl

theorem receive_eq_settle {e : Engine} (ready : e.Ready) {d : List UInt8} (nonempty : d ≠ []) :
    e.receive d = e.settle.gather (e.settle.frame ++ d) := by
  rw [receive_settle e nonempty]
  exact receive_eq_gather _ nonempty (frameReceived_settle e) (finalReceived_settle e) (incomplete_settle ready)

theorem payloadLength_append (second : UInt8) {header : List UInt8} (rest : List UInt8)
    (h : extendedSize second ≤ header.length) :
    payloadLength second (header ++ rest) = payloadLength second header := by
  rw [← payloadLength_take second (header ++ rest) h, List.take_left' rfl]

theorem headerMask_append (second : UInt8) {header : List UInt8} (rest : List UInt8)
    (h : headerSize second ≤ header.length + 2) :
    headerMask second (header ++ rest) = headerMask second header := by
  rw [← headerMask_take second (header ++ rest) h, List.take_left' rfl]

theorem gather_whole (e : Engine) {x0 x1 : UInt8} {header : List UInt8}
    (addressable : ¬ wordMax < payloadLength x1 header + headerSize x1)
    (limit : ¬ e.maxMessageSize < e.messageSize x0 (payloadLength x1 header))
    (whole : payloadLength x1 header + headerSize x1 ≤ (x0 :: x1 :: header).length) (b : List UInt8) :
    e.gather (x0 :: x1 :: header ++ b) =
      let held := (x0 :: x1 :: header).take (payloadLength x1 header + headerSize x1)
      let r := ({ e with frame := held, frameReceived := true } : Engine).completeFrame x0 (headerSize x1)
        (headerMask x1 header)
      let more := r.2.receive ((x0 :: x1 :: header).drop (payloadLength x1 header + headerSize x1) ++ b)
      (r.1 ++ more.1, more.2) := by
  have two := two_add_extendedSize_le x1
  have cut : ((x0 :: x1 :: header) ++ b).take (payloadLength x1 header + headerSize x1) =
      (x0 :: x1 :: header).take (payloadLength x1 header + headerSize x1) :=
    List.take_append_of_le_length whole
  have rest : ((x0 :: x1 :: header) ++ b).drop (payloadLength x1 header + headerSize x1) =
      (x0 :: x1 :: header).drop (payloadLength x1 header + headerSize x1) ++ b :=
    List.drop_append_of_le_length whole
  simp only [List.length_cons] at whole
  have length : payloadLength x1 (header ++ b) = payloadLength x1 header :=
    payloadLength_append x1 b (by omega)
  have mask : headerMask x1 (header ++ b) = headerMask x1 header := headerMask_append x1 b (by omega)
  simp only [List.cons_append] at cut rest
  simp only [gather, List.cons_append, List.length_cons, List.length_append, length, mask, cut, rest]
  -- the header is complete and the payload too, so every test on the lengths fails
  simp only [if_neg (show ¬ header.length + b.length + 1 + 1 < headerSize x1 by omega), addressable,
    limit, if_false, if_neg (show ¬ header.length + b.length + 1 + 1 <
      payloadLength x1 header + headerSize x1 by omega)]

/-- What reading a frame from some bytes can do, whatever bytes follow them: wait for more, stop at
an error, or deal with a frame that the bytes hold and read on after it. -/
theorem gather_cases (e : Engine) (s : List UInt8) :
    (e.gather s = ([], { e with frame := s }) ∧ ({ e with frame := s } : Engine).Incomplete) ∨
    (∃ ev stop, ev.IsFatal ∧ stop.frame = [] ∧ stop.frameReceived = false ∧
      stop.finalReceived = e.finalReceived ∧ ∀ b, e.gather (s ++ b) = ([ev], stop)) ∨
    (∃ x0 x1 header evs, ∃ next : Engine, s = x0 :: x1 :: header ∧
      payloadLength x1 header + headerSize x1 ≤ s.length ∧ next.frameReceived = true ∧
      (∀ ev ∈ evs, ¬ ev.IsFatal) ∧ ∀ b, e.gather (s ++ b) =
        (evs ++ (next.receive (s.drop (payloadLength x1 header + headerSize x1) ++ b)).1,
          (next.receive (s.drop (payloadLength x1 header + headerSize x1) ++ b)).2)) := by
  match s with
  | x0 :: x1 :: header =>
    have two := two_add_extendedSize_le x1
    by_cases short : (x0 :: x1 :: header).length < headerSize x1
    · left
      exact ⟨by simp only [gather]; rw [if_pos short], Or.inl short⟩
    · simp only [List.length_cons] at short
      have length : ∀ b, payloadLength x1 (header ++ b) = payloadLength x1 header :=
        fun b => payloadLength_append x1 b (by omega)
      have mask : ∀ b, headerMask x1 (header ++ b) = headerMask x1 header :=
        fun b => headerMask_append x1 b (by omega)
      by_cases addressable : wordMax < payloadLength x1 header + headerSize x1
      · refine Or.inr (Or.inl ⟨_, e.resetFrame, Event.isFatal_addressable (payloadLength x1 header), rfl, rfl,
          rfl, fun b => ?_⟩)
        simp [gather, length, addressable]
        omega
      · by_cases limit : e.maxMessageSize < e.messageSize x0 (payloadLength x1 header)
        · refine Or.inr (Or.inl ⟨_, { e.resetFrame with opcode := 0, message := [] },
            Event.isFatal_limit (e.messageSize x0 (payloadLength x1 header)) e.maxMessageSize, rfl, rfl, rfl,
            fun b => ?_⟩)
          simp [gather, length, addressable, limit]
          omega
        · by_cases waiting : (x0 :: x1 :: header).length < payloadLength x1 header + headerSize x1
          · left
            simp only [List.length_cons] at waiting
            refine ⟨by simp [gather, short, addressable, limit, waiting],
              Or.inr ⟨Nat.le_of_not_lt addressable, Nat.le_of_not_lt limit, ?_⟩⟩
            simp only [List.length_cons]
            omega
          · right; right
            have whole : payloadLength x1 header + headerSize x1 ≤ (x0 :: x1 :: header).length :=
              Nat.le_of_not_lt waiting
            let held := (x0 :: x1 :: header).take (payloadLength x1 header + headerSize x1)
            let frame : Engine := { e with frame := held, frameReceived := true }
            exact ⟨x0, x1, header, (frame.completeFrame x0 (headerSize x1) (headerMask x1 header)).1,
              (frame.completeFrame x0 (headerSize x1) (headerMask x1 header)).2, rfl, whole,
              frameReceived_deliver _ _ _, not_isFatal_deliver _ _ _, gather_whole e addressable limit whole⟩
  | [] => left; exact ⟨rfl, trivial⟩
  | [_] => left; exact ⟨rfl, trivial⟩

theorem length_drop_lt {e : Engine} (ready : e.Ready) {d : List UInt8} {x0 x1 : UInt8} {header : List UInt8}
    (split : e.settle.frame ++ d = x0 :: x1 :: header)
    (whole : payloadLength x1 header + headerSize x1 ≤ (x0 :: x1 :: header).length) :
    ((x0 :: x1 :: header).drop (payloadLength x1 header + headerSize x1)).length < d.length := by
  have held := incomplete_append (incomplete_settle ready) split
  have sizes := congrArg List.length split
  simp only [List.length_append, List.length_cons] at sizes whole
  simp only [List.length_drop, List.length_cons]
  omega

theorem ready_receive {e : Engine} (ready : e.Ready) (d : List UInt8) : (e.receive d).2.Ready := by
  by_cases nonempty : d = []
  · rw [nonempty, receive_nil]
    exact ready
  rw [receive_eq_settle ready nonempty]
  rcases gather_cases e.settle (e.settle.frame ++ d) with
    ⟨waiting, incomplete⟩ | ⟨ev, stop, -, frame, -, final, stopped⟩ |
      ⟨x0, x1, header, evs, next, split, whole, received, -, read⟩
  · rw [waiting]
    exact Or.inr ⟨finalReceived_settle e, incomplete⟩
  · rw [← List.append_nil (e.settle.frame ++ d), stopped []]
    refine Or.inr ⟨final.trans (finalReceived_settle e), ?_⟩
    simp [Incomplete, frame]
  · rw [← List.append_nil (e.settle.frame ++ d), read [], List.append_nil, split]
    rw [split] at whole
    have shorter := length_drop_lt ready split whole
    exact ready_receive (Or.inl received) _
termination_by d.length
decreasing_by exact shorter

/-- Receiving bytes in two calls gives the events of one call, unless the first call stopped at an
error that drops the rest of its bytes; then the one call stops there too. -/
theorem receive_append {e : Engine} (ready : e.Ready) (a b : List UInt8) :
    (e.receive (a ++ b) = e.receive a ∧
        ∃ pre ev, (e.receive a).1 = pre ++ [ev] ∧ ev.IsFatal ∧ ∀ x ∈ pre, ¬ x.IsFatal) ∨
      (e.receive (a ++ b) =
          ((e.receive a).1 ++ ((e.receive a).2.receive b).1, ((e.receive a).2.receive b).2) ∧
        ∀ x ∈ (e.receive a).1, ¬ x.IsFatal) := by
  by_cases empty : a = []
  · subst empty
    right
    simp [receive_nil]
  have both : a ++ b ≠ [] := by simp [empty]
  rw [receive_eq_settle ready both, receive_eq_settle ready empty, ← List.append_assoc]
  rcases gather_cases e.settle (e.settle.frame ++ a) with
    ⟨waiting, incomplete⟩ | ⟨ev, stop, fatal, -, -, -, stopped⟩ |
      ⟨x0, x1, header, evs, next, split, whole, received, harmless, read⟩
  · -- the frame is still incomplete: the later bytes continue it
    right
    rw [waiting]
    refine ⟨?_, by simp⟩
    by_cases rest : b = []
    · simp [rest, receive_nil, waiting]
    · rw [receive_eq_gather { e.settle with frame := e.settle.frame ++ a } rest (frameReceived_settle e)
        (finalReceived_settle e) incomplete]
      simp only [List.nil_append, List.append_assoc]
      rfl
  · -- a fatal error drops whatever follows it
    left
    have alone := stopped []
    rw [List.append_nil] at alone
    rw [alone, stopped b]
    exact ⟨rfl, [], ev, rfl, fatal, by simp⟩
  · -- a frame completes within the first bytes: carry on after it
    have alone := read []
    simp only [List.append_nil] at alone
    rw [alone, read b]
    have shorter : ((e.settle.frame ++ a).drop (payloadLength x1 header + headerSize x1)).length <
        a.length := by
      rw [split]
      exact length_drop_lt ready split (split ▸ whole)
    rcases receive_append (Or.inl received : next.Ready)
        ((e.settle.frame ++ a).drop (payloadLength x1 header + headerSize x1)) b with
      ⟨same, pre, ev, events, fatal, before⟩ | ⟨same, harmless'⟩
    · left
      rw [same]
      refine ⟨rfl, evs ++ pre, ev, by rw [events, List.append_assoc], fatal, ?_⟩
      intro x mem
      rcases List.mem_append.1 mem with here | there
      · exact harmless x here
      · exact before x there
    · right
      rw [same]
      refine ⟨by simp, ?_⟩
      intro x mem
      rcases List.mem_append.1 mem with here | there
      · exact harmless x here
      · exact harmless' x there
termination_by a.length
decreasing_by exact shorter

def receiveChunks (e : Engine) : List (List UInt8) → List Event × Engine
  | [] => ([], e)
  | c :: cs =>
    let r := e.receive c
    let rest := r.2.receiveChunks cs
    (r.1 ++ rest.1, rest.2)

/-- Receiving pieces in separate calls agrees with receiving them in one: exactly, when the one
call meets no error that drops bytes, and otherwise up to and including the first such error. -/
theorem receiveChunks_agrees {e : Engine} (ready : e.Ready) (cs : List (List UInt8)) :
    (e.receiveChunks cs = e.receive cs.flatten ∧ ∀ x ∈ (e.receive cs.flatten).1, ¬ x.IsFatal) ∨
      ∃ pre ev rest, (e.receive cs.flatten).1 = pre ++ [ev] ∧ (e.receiveChunks cs).1 = pre ++ ev :: rest ∧
        ev.IsFatal ∧ ∀ x ∈ pre, ¬ x.IsFatal := by
  induction cs generalizing e with
  | nil => exact Or.inl ⟨by simp [receiveChunks, receive_nil], by simp [receive_nil]⟩
  | cons c cs ih =>
    simp only [receiveChunks, List.flatten_cons]
    rcases receive_append ready c cs.flatten with ⟨same, pre, ev, events, fatal, before⟩ | ⟨same, harmless⟩
    · -- the first piece stops at a fatal error, which drops the rest of the one call
      right
      rw [same, events]
      exact ⟨pre, ev, ((e.receive c).2.receiveChunks cs).1, rfl, by simp, fatal, before⟩
    · rw [same]
      rcases ih (ready_receive ready c) with ⟨agree, harmless'⟩ | ⟨pre, ev, rest, events, chunked, fatal, before⟩
      · left
        refine ⟨by rw [agree], ?_⟩
        intro x mem
        rcases List.mem_append.1 mem with here | there
        · exact harmless x here
        · exact harmless' x there
      · right
        refine ⟨(e.receive c).1 ++ pre, ev, rest, by rw [events, List.append_assoc],
          by rw [chunked, List.append_assoc], fatal, ?_⟩
        intro x mem
        rcases List.mem_append.1 mem with here | there
        · exact harmless x here
        · exact before x there

theorem ready_fresh (client : Bool) (maxMessageSize : Nat) : (fresh client maxMessageSize).Ready :=
  Or.inr ⟨rfl, trivial⟩

end Engine

/-- A fresh engine, on either side and with any size limit, reports the same events however its
bytes are cut into calls, up to and including the first error that drops the rest of a call's
bytes; with no such error, the calls leave it in the same state as one call. -/
theorem receiving_in_pieces_agrees_with_one_call (client : Bool) (maxMessageSize : Nat)
    (cs : List (List UInt8)) :
    ((Engine.fresh client maxMessageSize).receiveChunks cs =
        (Engine.fresh client maxMessageSize).receive cs.flatten ∧
      ∀ x ∈ ((Engine.fresh client maxMessageSize).receive cs.flatten).1, ¬ x.IsFatal) ∨
    ∃ pre ev rest, ((Engine.fresh client maxMessageSize).receive cs.flatten).1 = pre ++ [ev] ∧
      ((Engine.fresh client maxMessageSize).receiveChunks cs).1 = pre ++ ev :: rest ∧ ev.IsFatal ∧
      ∀ x ∈ pre, ¬ x.IsFatal :=
  Engine.receiveChunks_agrees (Engine.ready_fresh client maxMessageSize) cs

end Switchboard.WebSocket
