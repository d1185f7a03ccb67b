import Switchboard.Proofs.Http.Reception
/-!
# A whole message at the head of a stream

Bytes that hold exactly one message of a reader's kind (`Reader.Whole`), with anything after them.
Received in pieces, the message never fails, waits until the pieces reach its end, and then
completes as it reads alone (`Reader.receiveChunks_whole`). A message being received keeps every
byte fed to it (`Reader.raw_receive`), and a read completes it exactly when the read answers so
(`Reader.receive_done`). `Reader.Receiving` follows the message read by read up to its end.
Requests and responses are receptions under a map, and take these facts over through it.
-/
namespace Switchboard.Http

namespace Message

theorem cache_receiveHeader {α : Type} (m : Message) (bytes : List UInt8) (cookieHeader : String)
    (read : StartLine → Except HttpError α) :
    (m.receiveHeader bytes cookieHeader read).2.cache = (m.cache.write bytes).2 := by
  unfold receiveHeader
  dsimp only
  split
  · split <;> rfl
  · split
    · rfl
    · split <;> rfl

theorem state_receiveHeader {α : Type} (m : Message) (bytes : List UInt8) (cookieHeader : String)
    (read : StartLine → Except HttpError α) :
    ((m.receiveHeader bytes cookieHeader read).1.isSome ∧
        (m.receiveHeader bytes cookieHeader read).2.state = .pendingBody) ∨
      ((m.receiveHeader bytes cookieHeader read).1 = none ∧
        ((m.receiveHeader bytes cookieHeader read).2.state = m.state ∨
          (m.receiveHeader bytes cookieHeader read).2.state = .pendingHeader ∨
          (m.receiveHeader bytes cookieHeader read).2.state = .errorSet)) := by
  unfold receiveHeader
  dsimp only
  split
  · split <;> simp
  · split
    · simp
    · split <;> simp

theorem state_receiveHeader_of_pending {α : Type} {m : Message} (pending : m.isPendingHeader = true)
    (bytes : List UInt8) (cookieHeader : String) (read : StartLine → Except HttpError α) :
    ((m.receiveHeader bytes cookieHeader read).1.isSome ∧
        (m.receiveHeader bytes cookieHeader read).2.state = .pendingBody) ∨
      ((m.receiveHeader bytes cookieHeader read).1 = none ∧
        (m.receiveHeader bytes cookieHeader read).2.state ≠ .pendingBody ∧
        (m.receiveHeader bytes cookieHeader read).2.state ≠ .complete) := by
  have before : m.state = .empty ∨ m.state = .pendingHeader := by simpa [isPendingHeader] using pending
  rcases state_receiveHeader m bytes cookieHeader read with found | ⟨none, waiting⟩
  · exact .inl found
  · refine .inr ⟨none, ?_⟩
    rcases waiting with same | waiting | failed
    · rw [same]
      rcases before with state | state <;> rw [state] <;> decide
    · rw [waiting]
      decide
    · rw [failed]
      decide

theorem state_receiveBody (m : Message) (bytes : List UInt8) (bodyless : Bool) :
    (m.receiveBody bytes bodyless).2.state =
      if (m.receiveBody bytes bodyless).1 then .complete else m.state := rfl

end Message

namespace Reader

variable {α : Type} (R : Reader α)

theorem receiveAll_append {b : List UInt8} (tail : List UInt8) {t : Nat}
    (found : findTerminator b 0 = some t) (read : (R.receiveAll b).message.state ≠ .errorSet) :
    (R.receiveAll (b ++ tail)).answer = (R.receiveAll b).answer ∧
      (R.receiveAll (b ++ tail)).message.cursor.lengthGiven =
        (R.receiveAll b).message.cursor.lengthGiven ∧
      (R.receiveAll (b ++ tail)).message.state ≠ .errorSet := by
  obtain ⟨ok, body, -, once⟩ := receiveAll_of_read R found read
  have same : [] ++ b ++ tail = [] ++ (b ++ tail) := rfl
  obtain ⟨done, answers, grown, state⟩ :=
    header_extends R headerPending_empty headerPending_empty rfl (by simpa using found) same
  have ok' : (R.receiver.header {} (b ++ tail)).1 = true := done ▸ ok
  have longer : R.receiveAll (b ++ tail) = (R.receiver.body (R.receiver.header {} (b ++ tail)).2 []).2 := by
    simp [receiveAll, receive_empty, ok']
  rw [longer, once, body_message, body_message]
  refine ⟨answers.symm, ?_, ?_⟩
  · simp only [Message.lengthGiven_receiveBody, grown.lengthGiven]
  · rw [Message.state_receiveBody, state, body.state]
    split <;> simp

theorem cursor_of_complete (cs : List (List UInt8)) (rest : List UInt8) {t : Nat}
    (found : findTerminator (cs.flatten ++ rest) 0 = some t)
    (read : (R.receiveAll (cs.flatten ++ rest)).message.state ≠ .errorSet)
    (framed : (R.receiveAll (cs.flatten ++ rest)).message.cursor.lengthGiven = true ∨
      R.bodyless (R.receiveAll (cs.flatten ++ rest)).answer = true)
    (done : (R.receiver.receiveChunks {} cs).message.state = .complete) :
    (R.receiver.receiveChunks {} cs).message.cursor.index = t + 4 ∧
      (R.receiver.receiveChunks {} cs).message.cursor.size =
        (R.receiver.receiveChunks {} cs).message.cursor.length := by
  cases early : findTerminator cs.flatten 0 with
  | none =>
    have waiting := (receiveChunks_headerPending R headerPending_empty cs (by simpa using early)).1
    rw [waiting.state] at done
    split at done <;> cases done
  | some t' =>
    obtain rfl : t' = t := Option.some.inj ((findTerminator_append_of_eq_some rest early).symm.trans found)
    obtain ⟨-, -, -, once⟩ := receiveAll_of_read R found read
    obtain ⟨s, q, post, h, index, -, answers, grown, run⟩ := receiveChunks_of_read R rest early read
    rw [run] at done ⊢
    rcases framed_of_read R once answers grown framed with given | ⟨given, bodyless⟩
    · obtain ⟨-, -, x, -, grown', finished⟩ := receiveChunks_declared R h given [] post
      obtain ⟨size, -⟩ := finished done
      exact ⟨grown'.index.trans index, size.trans grown'.length.symm⟩
    · -- without a declared length the body is empty
      obtain ⟨-, -, size, length, -, -, -, index'⟩ := receiveChunks_bodyless R h given bodyless [] post
      exact ⟨index'.trans index, size.trans length.symm⟩


end Reader

namespace Reception

variable {α : Type} {s s' s'' : Reception α}

theorem Same.symm (h : s.Same s') : s'.Same s :=
  ⟨h.answer.symm, h.headers.symm, h.cookies.symm, h.body.symm, h.bodyLength.symm⟩

theorem Same.trans (h : s.Same s') (h' : s'.Same s'') : s.Same s'' :=
  ⟨h.answer.trans h'.answer, h.headers.trans h'.headers, h.cookies.trans h'.cookies,
    h.body.trans h'.body, h.bodyLength.trans h'.bodyLength⟩

end Reception

namespace Reader

variable {α : Type} (R : Reader α)

theorem receiveChunks_singleton (b : List UInt8) : R.receiver.receiveChunks {} [b] = R.receiveAll b := by
  rw [Receiver.receiveChunks_cons _ rfl]
  rfl

/-- Bytes that hold exactly one message: read at once it completes, its body is framed by a
declared length or by the reader's rule for messages without one, and the body ends the bytes. -/
structure Whole (b : List UInt8) : Prop where
  complete : (R.receiveAll b).message.state = .complete
  framed : (R.receiveAll b).message.cursor.lengthGiven = true ∨ R.bodyless (R.receiveAll b).answer = true
  ends : ∃ t, findTerminator b 0 = some t ∧ t + 4 + (R.receiveAll b).message.bodyLength = b.length

variable {R}

theorem Whole.length_pos {b : List UInt8} (whole : R.Whole b) : 0 < b.length := by
  obtain ⟨t, -, ends⟩ := whole.ends
  omega

theorem Whole.append {b : List UInt8} (whole : R.Whole b) (tail : List UInt8) :
    ∃ t, findTerminator (b ++ tail) 0 = some t ∧ (R.receiveAll (b ++ tail)).message.state ≠ .errorSet ∧
      ((R.receiveAll (b ++ tail)).message.cursor.lengthGiven = true ∨
        R.bodyless (R.receiveAll (b ++ tail)).answer = true) ∧
      (R.receiveAll b).Same (R.receiveAll (b ++ tail)) ∧
      t + 4 + (R.receiveAll (b ++ tail)).message.bodyLength = b.length := by
  obtain ⟨t, found, ends⟩ := whole.ends
  have read : (R.receiveAll b).message.state ≠ .errorSet := by
    rw [whole.complete]
    decide
  obtain ⟨answers, given, fine⟩ := R.receiveAll_append tail found read
  have found' := findTerminator_append_of_eq_some tail found
  have framed : (R.receiveAll (b ++ tail)).message.cursor.lengthGiven = true ∨
      R.bodyless (R.receiveAll (b ++ tail)).answer = true := by
    rw [answers, given]
    exact whole.framed
  -- the message alone is the first piece of the longer bytes, and it completes there
  have flat : [b].flatten ++ tail = b ++ tail := by simp
  obtain ⟨-, same⟩ := R.complete_receiveChunks [b] tail (flat ▸ found') (flat ▸ fine) (flat ▸ framed)
  rw [flat, receiveChunks_singleton] at same
  have agree := same whole.complete
  exact ⟨t, found', fine, framed, agree, by rw [← agree.bodyLength]; exact ends⟩

/-- A whole message at the head of a stream, received from pieces of the stream: it never fails,
it completes exactly when the pieces reach its end, and it then holds what it holds read alone,
with its body ending where the message ends. -/
theorem receiveChunks_whole {b : List UInt8} (whole : R.Whole b) {qs : List (List UInt8)}
    {tail : List UInt8} (within : qs.flatten <+: b ++ tail) :
    (R.receiver.receiveChunks {} qs).message.state ≠ .errorSet ∧
      ((R.receiver.receiveChunks {} qs).message.state = .complete ↔ b.length ≤ qs.flatten.length) ∧
      ((R.receiver.receiveChunks {} qs).message.state = .complete →
        (R.receiver.receiveChunks {} qs).Same (R.receiveAll b) ∧
          (R.receiver.receiveChunks {} qs).message.cursor.index +
            (R.receiver.receiveChunks {} qs).message.cursor.size = b.length) := by
  obtain ⟨rest, stream⟩ := within
  obtain ⟨t, found, read, framed, same, ends⟩ := whole.append tail
  rw [← stream] at found read framed same ends
  obtain ⟨reach, agree⟩ := R.complete_receiveChunks qs rest found read framed
  refine ⟨fun failed => read ((R.errorSet_receiveChunks qs rest).1 failed).2, by rw [reach, ends], fun done => ?_⟩
  obtain ⟨index, size⟩ := R.cursor_of_complete qs rest found read framed done
  have held := agree done
  refine ⟨held.trans same.symm, ?_⟩
  -- the body the pieces frame is the one read at once, which ends where the message ends
  have length : (R.receiver.receiveChunks {} qs).message.cursor.length =
      (R.receiveAll (qs.flatten ++ rest)).message.bodyLength := held.bodyLength
  rw [index, size, length, ends]

theorem cache_receive (s : Reception α) (d : List UInt8) :
    (R.receiver.receive s d).2.message.cache = (s.message.cache.write d).2 := by
  have header : (R.receiver.header s d).2.message.cache = (s.message.cache.write d).2 := by
    rw [header_message]
    exact Message.cache_receiveHeader s.message d R.cookieHeader R.read
  unfold Receiver.receive
  split
  · split
    · next s' read =>
      rw [read] at header
      show (s'.message.cache.write []).2 = _
      rw [← header]
      rfl
    · next s' read =>
      rw [read] at header
      exact header
  · rfl

theorem raw_receive {s : Reception α} (sound : s.message.cache.length ≤ s.message.cache.capacity)
    (d : List UInt8) :
    (R.receiver.receive s d).2.message.cache.length ≤ (R.receiver.receive s d).2.message.cache.capacity ∧
      (R.receiver.receive s d).2.message.raw = s.message.raw ++ d := by
  rw [Message.raw, Message.raw, cache_receive]
  exact ⟨ByteBuffer.length_le_capacity_write _ _ sound, ByteBuffer.bytes_write _ _ sound⟩

/-- A read of a message still being received answers true exactly when it completes the
message. -/
theorem receive_done {s : Reception α} (unsettled : R.receiver.settled s = false) (d : List UInt8) :
    (R.receiver.receive s d).1 = true ↔ (R.receiver.receive s d).2.message.state = .complete := by
  have open_ : s.message.state ≠ .complete ∧ s.message.state ≠ .errorSet := by
    simpa [receiver] using unsettled
  by_cases pending : s.message.isPendingHeader = true
  · rw [Receiver.receive_of_pending R.receiver pending]
    rcases Message.state_receiveHeader_of_pending pending d R.cookieHeader R.read with
      ⟨read, body⟩ | ⟨none, -, unfinished⟩
    · -- the header block reads, and the body read that follows decides
      have yes : (R.receiver.header s d).1 = true := by rw [header_done, read]
      have later : (R.receiver.header s d).2.message.state = .pendingBody := by rw [header_message, body]
      simp only [yes, if_true]
      show (Message.receiveBody _ [] _).1 = true ↔ (Message.receiveBody _ [] _).2.state = .complete
      rw [Message.state_receiveBody, later]
      split <;> simp_all
    · have no : (R.receiver.header s d).1 = false := by rw [header_done, none]; rfl
      simp only [no, Bool.false_eq_true, if_false, false_iff]
      rw [header_message]
      exact unfinished
  · have body : s.message.state = .pendingBody := by
      cases state : s.message.state <;> simp_all [Message.isPendingHeader]
    rw [Receiver.receive_of_not_pending R.receiver (by simpa [receiver] using pending)]
    show (s.message.receiveBody d _).1 = true ↔ (s.message.receiveBody d _).2.state = .complete
    rw [Message.state_receiveBody, body]
    split <;> simp_all

variable (R) in
/-- A message that has received the pieces `ps`, which fall short of the whole message `b`. -/
structure Receiving (b : List UInt8) (ps : List (List UInt8)) (s : Reception α) : Prop where
  pieces : s = R.receiver.receiveChunks {} ps
  sound : s.message.cache.length ≤ s.message.cache.capacity
  raw : s.message.raw = ps.flatten
  short : ps.flatten.length < b.length

section Receiving

variable {b tail d : List UInt8} {ps : List (List UInt8)} {s : Reception α}

theorem receiving_empty (whole : R.Whole b) : R.Receiving b [] {} :=
  ⟨rfl, Nat.le_refl 0, rfl, by simpa using whole.length_pos⟩

theorem Receiving.unsettled (h : R.Receiving b ps s) (whole : R.Whole b) (within : ps.flatten <+: b ++ tail) :
    R.receiver.settled s = false := by
  obtain ⟨failed, reach, -⟩ := receiveChunks_whole whole within
  have incomplete : s.message.state ≠ .complete := by
    intro done
    rw [h.pieces] at done
    exact Nat.not_le.2 h.short (reach.1 done)
  rw [← h.pieces] at failed
  simp [receiver, incomplete, failed]

theorem Receiving.receive_eq (h : R.Receiving b ps s) (whole : R.Whole b)
    (within : ps.flatten ++ d <+: b ++ tail) :
    (R.receiver.receive s d).2 = R.receiver.receiveChunks {} (ps ++ [d]) := by
  have unsettled := h.unsettled whole (List.prefix_append _ _ |>.trans within)
  rw [Receiver.receiveChunks_append, ← h.pieces, Receiver.receiveChunks_cons _ unsettled]
  rfl

theorem Receiving.receive_short (h : R.Receiving b ps s) (whole : R.Whole b)
    (within : ps.flatten ++ d <+: b ++ tail) (short : (ps.flatten ++ d).length < b.length) :
    (R.receiver.receive s d).1 = false ∧ (R.receiver.receive s d).2.message.state ≠ .errorSet ∧
      R.Receiving b (ps ++ [d]) (R.receiver.receive s d).2 := by
  have unsettled := h.unsettled whole (List.prefix_append _ _ |>.trans within)
  have fed : (ps ++ [d]).flatten = ps.flatten ++ d := by simp
  have within' : (ps ++ [d]).flatten <+: b ++ tail := by rw [fed]; exact within
  obtain ⟨failed, reach, -⟩ := receiveChunks_whole whole within'
  have eq := h.receive_eq whole within
  obtain ⟨sound, raw⟩ := raw_receive h.sound d
  rw [h.raw] at raw
  refine ⟨?_, by rw [eq]; exact failed, ⟨eq, sound, by rw [raw, fed], by rw [fed]; exact short⟩⟩
  cases done : (R.receiver.receive s d).1
  · rfl
  · have complete := (receive_done unsettled d).1 done
    rw [eq, reach, fed] at complete
    omega

theorem Receiving.receive_long (h : R.Receiving b ps s) (whole : R.Whole b)
    (within : ps.flatten ++ d <+: b ++ tail) (long : b.length ≤ (ps.flatten ++ d).length) :
    (R.receiver.receive s d).1 = true ∧ (R.receiver.receive s d).2.Same (R.receiveAll b) ∧
      (R.receiver.receive s d).2.message.surplus = (ps.flatten ++ d).drop b.length := by
  have unsettled := h.unsettled whole (List.prefix_append _ _ |>.trans within)
  have fed : (ps ++ [d]).flatten = ps.flatten ++ d := by simp
  have within' : (ps ++ [d]).flatten <+: b ++ tail := by rw [fed]; exact within
  obtain ⟨-, reach, agree⟩ := receiveChunks_whole whole within'
  have eq := h.receive_eq whole within
  have complete : (R.receiver.receive s d).2.message.state = .complete := by
    rw [eq, reach, fed]
    exact long
  obtain ⟨same, cursor⟩ := agree (eq ▸ complete)
  rw [← eq] at same cursor
  obtain ⟨-, raw⟩ := raw_receive h.sound d
  rw [h.raw] at raw
  refine ⟨(receive_done unsettled d).2 complete, same, ?_⟩
  simp only [Message.surplus, complete, if_true, BodyCursor.surplus, BodyCursor.stop]
  show (R.receiver.receive s d).2.message.raw.drop _ = _
  rw [raw, cursor, Nat.min_eq_left long]

end Receiving

/-! ## The bytes after a message -/

theorem raw_receiveChunks {s : Reception α} (sound : s.message.cache.length ≤ s.message.cache.capacity)
    (cs : List (List UInt8)) (unsettled : R.receiver.settled (R.receiver.receiveChunks s cs) = false) :
    (R.receiver.receiveChunks s cs).message.cache.length ≤ (R.receiver.receiveChunks s cs).message.cache.capacity ∧
      (R.receiver.receiveChunks s cs).message.raw = s.message.raw ++ cs.flatten := by
  induction cs generalizing s with
  | nil => simpa [Receiver.receiveChunks] using sound
  | cons c cs ih =>
    cases settled : R.receiver.settled s with
    | true =>
      rw [Receiver.receiveChunks_of_settled _ settled, settled] at unsettled
      cases unsettled
    | false =>
      rw [Receiver.receiveChunks_cons _ settled] at unsettled ⊢
      obtain ⟨sound', raw⟩ := raw_receive sound c
      obtain ⟨sound'', raw'⟩ := ih sound' unsettled
      rw [raw', raw, List.flatten_cons, List.append_assoc]
      exact ⟨sound'', rfl⟩

theorem surplus_receiveChunks_unframed {q : List UInt8} {s : Reception α} (h : s.message.BodyPending q)
    (given : s.message.cursor.lengthGiven = false) (bodied : R.bodyless s.answer = false)
    (cs : List (List UInt8)) : (R.receiver.receiveChunks s cs).message.surplus = [] := by
  induction cs generalizing q s with
  | nil => simp [Receiver.receiveChunks, Message.surplus, h.state]
  | cons c cs ih =>
    obtain ⟨empty, waiting⟩ := Message.receiveBody_unframed c h given
    rw [receiveChunks_cons_of_bodyPending R h, body_message, bodied]
    cases done : (s.message.receiveBody c false).1
    · exact ih (waiting done) (by rw [Message.lengthGiven_receiveBody]; exact given) bodied
    · have complete : (s.message.receiveBody c false).2.state = .complete := by
        rw [Message.state_receiveBody, done]
        rfl
      rw [Receiver.receiveChunks_of_settled _ (settled_of_complete R complete)]
      exact empty

/-- Pieces that complete a message hold its whole header block, and it reads. -/
theorem read_of_complete {cs : List (List UInt8)}
    (complete : (R.receiver.receiveChunks {} cs).message.state = .complete) :
    ∃ t, findTerminator cs.flatten 0 = some t ∧ (R.receiveAll cs.flatten).message.state ≠ .errorSet := by
  obtain ⟨t, found⟩ : ∃ t, findTerminator cs.flatten 0 = some t := by
    have waiting := isPendingHeader_receiveChunks R cs
    rw [Message.isPendingHeader, complete] at waiting
    exact Option.isSome_iff_exists.1 (by simpa using waiting)
  refine ⟨t, found, fun failed => ?_⟩
  have fails := (errorSet_receiveChunks R cs []).2 ⟨by rw [found]; rfl, by rw [List.append_nil]; exact failed⟩
  rw [complete] at fails
  cases fails

theorem raw_receiveChunks_snoc {ps : List (List UInt8)}
    (unsettled : R.receiver.settled (R.receiver.receiveChunks {} ps) = false) (d : List UInt8) :
    (R.receiver.receiveChunks {} (ps ++ [d])).message.raw = ps.flatten ++ d := by
  obtain ⟨sound, raw⟩ := raw_receiveChunks (s := {}) (Nat.le_refl 0) ps unsettled
  have last : R.receiver.receiveChunks {} (ps ++ [d]) = (R.receiver.receive (R.receiver.receiveChunks {} ps) d).2 := by
    rw [Receiver.receiveChunks_append, Receiver.receiveChunks_cons _ unsettled]
    rfl
  rw [last, (raw_receive sound d).2, raw]
  rfl

/-- A body with a declared length, or none, ends within the read that completes it, so the bytes
after it are fewer than the read's. -/
theorem length_surplus_lt_of_framed {ps : List (List UInt8)} {d : List UInt8} {t : Nat}
    (unsettled : R.receiver.settled (R.receiver.receiveChunks {} ps) = false)
    (complete : (R.receiver.receiveChunks {} (ps ++ [d])).message.state = .complete)
    (found : findTerminator (ps.flatten ++ d) 0 = some t)
    (read : (R.receiveAll (ps.flatten ++ d)).message.state ≠ .errorSet)
    (framed : (R.receiveAll (ps.flatten ++ d)).message.cursor.lengthGiven = true ∨
      R.bodyless (R.receiveAll (ps.flatten ++ d)).answer = true) :
    (R.receiver.receiveChunks {} (ps ++ [d])).message.surplus.length < d.length := by
  have fed : (ps ++ [d]).flatten ++ [] = ps.flatten ++ d := by simp
  -- the body ends past the pieces before the read, and within the read
  have incomplete : (R.receiver.receiveChunks {} ps).message.state ≠ .complete := by
    intro done
    rw [settled_of_complete R done] at unsettled
    cases unsettled
  have short : ps.flatten.length < t + 4 + (R.receiveAll (ps.flatten ++ d)).message.bodyLength :=
    Nat.lt_of_not_le fun fits => incomplete ((complete_receiveChunks R ps d found read framed).1.2 fits)
  rw [← fed] at found read framed
  obtain ⟨reach, same⟩ := complete_receiveChunks R (ps ++ [d]) [] found read framed
  obtain ⟨index, size⟩ := cursor_of_complete R (ps ++ [d]) [] found read framed complete
  rw [fed] at reach same
  have ends : t + 4 + (R.receiveAll (ps.flatten ++ d)).message.bodyLength ≤ ps.flatten.length + d.length := by
    simpa using reach.1 complete
  have held := raw_receiveChunks_snoc unsettled d
  have length : (R.receiver.receiveChunks {} (ps ++ [d])).message.cursor.length =
      (R.receiveAll (ps.flatten ++ d)).message.bodyLength := (same complete).bodyLength
  have stop : (R.receiver.receiveChunks {} (ps ++ [d])).message.cursor.stop
      (R.receiver.receiveChunks {} (ps ++ [d])).message.raw.length =
        t + 4 + (R.receiveAll (ps.flatten ++ d)).message.bodyLength := by
    rw [BodyCursor.stop, index, size, length, held, List.length_append]
    exact Nat.min_eq_left ends
  rw [Message.surplus, if_pos complete, BodyCursor.surplus, stop, held, List.length_drop, List.length_append]
  omega

/-- A body without a declared length runs to the end of what was received, so nothing is left
after it. -/
theorem surplus_receiveChunks_of_unframed {cs : List (List UInt8)} {t : Nat}
    (found : findTerminator cs.flatten 0 = some t) (read : (R.receiveAll cs.flatten).message.state ≠ .errorSet)
    (unframed : ¬ ((R.receiveAll cs.flatten).message.cursor.lengthGiven = true ∨
      R.bodyless (R.receiveAll cs.flatten).answer = true)) :
    (R.receiver.receiveChunks {} cs).message.surplus = [] := by
  obtain ⟨-, -, -, once⟩ := receiveAll_of_read R found read
  rw [← List.append_nil cs.flatten] at read
  obtain ⟨s, q, post, h, -, -, answers, grown, run⟩ := receiveChunks_of_read R [] found read
  simp only [List.append_nil] at answers grown
  rw [once, body_message] at unframed
  simp only [Message.lengthGiven_receiveBody, grown.lengthGiven, ← answers, not_or, Bool.not_eq_true] at unframed
  rw [run]
  exact surplus_receiveChunks_unframed h unframed.1 unframed.2 ([] :: post)

theorem length_surplus_lt {ps : List (List UInt8)}
    (unsettled : R.receiver.settled (R.receiver.receiveChunks {} ps) = false) (d : List UInt8)
    (left : (R.receiver.receiveChunks {} (ps ++ [d])).message.surplus ≠ []) :
    (R.receiver.receiveChunks {} (ps ++ [d])).message.surplus.length < d.length := by
  have complete : (R.receiver.receiveChunks {} (ps ++ [d])).message.state = .complete := by
    unfold Message.surplus at left
    split at left
    · assumption
    · exact absurd rfl left
  obtain ⟨t, found, read⟩ := read_of_complete complete
  by_cases framed : (R.receiveAll (ps ++ [d]).flatten).message.cursor.lengthGiven = true ∨
      R.bodyless (R.receiveAll (ps ++ [d]).flatten).answer = true
  · have flat : (ps ++ [d]).flatten = ps.flatten ++ d := by simp
    rw [flat] at found read framed
    exact length_surplus_lt_of_framed unsettled complete found read framed
  · exact absurd (surplus_receiveChunks_of_unframed found read framed) left

end Reader

end Switchboard.Http
