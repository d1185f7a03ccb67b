import Switchboard.Proofs.Http.WholeMessage
import Switchboard.Proofs.Http.SplitReading
/-!
# A whole request at the head of a stream

Bytes that hold exactly one request, with anything after them. Received in pieces, the request
never fails, waits until the pieces reach its end, and then completes as it reads alone, with the
bytes past its end as its surplus (`Request.receiveChunks_whole`). A request being received keeps
every byte fed to it (`Request.raw_receive`), and a read completes it exactly when the read
answers so (`Request.receive_done`). Every request is the request of a reception, so each of these
is the reader's statement carried over by `Request.ofReception`.
-/
namespace Switchboard.Http

namespace Request

/-- Requests that hold the same start line, fields and body. -/
structure Same (r r' : Request) : Prop where
  method : r.method = r'.method
  url : r.url = r'.url
  protocol : r.protocol = r'.protocol
  headers : r.headers = r'.headers
  cookies : r.cookies = r'.cookies
  body : r.body = r'.body

theorem Same.trans {r r' r'' : Request} (h : Same r r') (h' : Same r' r'') : Same r r'' :=
  ⟨h.method.trans h'.method, h.url.trans h'.url, h.protocol.trans h'.protocol,
    h.headers.trans h'.headers, h.cookies.trans h'.cookies, h.body.trans h'.body⟩

theorem receive_fresh (b : List UInt8) : (receiver.receive {} b).2 = ofBytes b := by
  rw [Receiver.receive_of_pending receiver rfl]
  simp only [ofBytes, receiver]
  symm
  split <;> simp_all

theorem receiveChunks_singleton (b : List UInt8) : receiver.receiveChunks {} [b] = ofBytes b := by
  rw [Receiver.receiveChunks_cons receiver rfl, receive_fresh]
  rfl

theorem same_ofReception {s s' : Reception StartLine} (h : s.Same s') : Same (ofReception s) (ofReception s') :=
  ⟨by simp only [ofReception, h.answer], by simp only [ofReception, h.answer], by simp only [ofReception, h.answer],
    h.headers, h.cookies, h.body⟩

theorem exists_ofReception (r : Request) : ∃ s, ofReception s = r :=
  ⟨⟨r.toMessage, some ⟨r.method, r.url, r.protocol, 0⟩⟩, rfl⟩

theorem receive_ofReception (s : Reception StartLine) (d : List UInt8) :
    receiver.receive (ofReception s) d = ((reader.receiver.receive s d).1, ofReception (reader.receiver.receive s d).2) :=
  Receiver.receive_map receiver reader.receiver ofReception (fun _ => rfl) header_ofReception (fun _ _ => rfl) s d

/-- Bytes that hold exactly one request: read at once it completes, its body is framed by a
declared length or by a bodyless method, and the body ends the bytes. -/
structure Whole (b : List UInt8) : Prop where
  complete : (ofBytes b).state = .complete
  framed : (ofBytes b).cursor.lengthGiven = true ∨ (ofBytes b).methodKind.any Method.bodyless = true
  ends : ∃ t, findTerminator b 0 = some t ∧ t + 4 + (ofBytes b).bodyLength = b.length

theorem Whole.toReader {b : List UInt8} (whole : Whole b) : reader.Whole b := by
  obtain ⟨complete, framed, ends⟩ := whole
  rw [ofBytes_eq_ofReception] at complete framed ends
  exact ⟨complete, framed, ends⟩

/-- A whole request at the head of a stream, received from pieces of the stream: it never fails,
it completes exactly when the pieces reach its end, and it then holds what it holds read alone,
with its body ending where the request ends. -/
theorem receiveChunks_whole {b : List UInt8} (whole : Whole b) {qs : List (List UInt8)} {tail : List UInt8}
    (within : qs.flatten <+: b ++ tail) :
    (receiver.receiveChunks {} qs).state ≠ .errorSet ∧
      ((receiver.receiveChunks {} qs).state = .complete ↔ b.length ≤ qs.flatten.length) ∧
      ((receiver.receiveChunks {} qs).state = .complete →
        Same (receiver.receiveChunks {} qs) (ofBytes b) ∧
          (receiver.receiveChunks {} qs).cursor.index + (receiver.receiveChunks {} qs).cursor.size =
            b.length) := by
  have held : receiver.receiveChunks {} qs = ofReception (reader.receiver.receiveChunks {} qs) :=
    receiveChunks_ofReception {} qs
  obtain ⟨failed, reach, agree⟩ := reader.receiveChunks_whole whole.toReader within
  rw [held, ofBytes_eq_ofReception]
  exact ⟨failed, reach, fun done => ⟨same_ofReception (agree done).1, (agree done).2⟩⟩

theorem raw_receive {r : Request} (sound : r.cache.length ≤ r.cache.capacity) (d : List UInt8) :
    (receiver.receive r d).2.cache.length ≤ (receiver.receive r d).2.cache.capacity ∧
      (receiver.receive r d).2.raw = r.raw ++ d := by
  obtain ⟨s, rfl⟩ := exists_ofReception r
  rw [receive_ofReception]
  exact reader.raw_receive sound d

theorem receiveHeader_parts (r : Request) (d : List UInt8) :
    (r.receiveHeader d).1 = (r.toMessage.receiveHeader d "Cookie" Except.ok).1.isSome ∧
      (r.receiveHeader d).2.state = (r.toMessage.receiveHeader d "Cookie" Except.ok).2.state := by
  unfold receiveHeader
  split <;> next m read => simp [read]

theorem state_receiveBody (r : Request) (d : List UInt8) :
    (r.receiveBody d).2.state = if (r.receiveBody d).1 then .complete else r.state := rfl

/-- A read of a request still being received answers true exactly when it completes the
request. -/
theorem receive_done {r : Request} (unsettled : receiver.settled r = false) (d : List UInt8) :
    (receiver.receive r d).1 = true ↔ (receiver.receive r d).2.state = .complete := by
  obtain ⟨s, rfl⟩ := exists_ofReception r
  rw [receive_ofReception]
  exact reader.receive_done unsettled d

theorem isPendingHeader_receiveChunks {qs : List (List UInt8)} (none : findTerminator qs.flatten 0 = Option.none) :
    (receiver.receiveChunks {} qs).isPendingHeader = true := by
  obtain ⟨pending, -, -⟩ := receiveChunks_take qs qs.length
  rw [List.take_length] at pending
  exact pending.2 fun t found => by rw [none] at found; cases found

theorem settled_of_isPendingHeader {r : Request} (pending : r.isPendingHeader = true) :
    receiver.settled r = false := by
  simp only [Message.isPendingHeader, Bool.or_eq_true, decide_eq_true_eq] at pending
  rcases pending with state | state <;> simp [receiver, state]

theorem receive_waiting {r : Request} {ps : List (List UInt8)} {d : List UInt8}
    (pieces : r = receiver.receiveChunks {} ps) (none : findTerminator (ps.flatten ++ d) 0 = Option.none) :
    receiver.receive r d = (false, receiver.receiveChunks {} (ps ++ [d])) ∧
      (receiver.receiveChunks {} (ps ++ [d])).isPendingHeader = true := by
  have fed : (ps ++ [d]).flatten = ps.flatten ++ d := by simp
  have before := isPendingHeader_receiveChunks (findTerminator_eq_none_of_append d none)
  have after := isPendingHeader_receiveChunks (show findTerminator (ps ++ [d]).flatten 0 = Option.none by
    rw [fed]; exact none)
  rw [← pieces] at before
  have unsettled := settled_of_isPendingHeader before
  have eq : (receiver.receive r d).2 = receiver.receiveChunks {} (ps ++ [d]) := by
    rw [Receiver.receiveChunks_append, ← pieces, Receiver.receiveChunks_cons receiver unsettled]
    rfl
  refine ⟨Prod.ext ?_ eq, after⟩
  cases done : (receiver.receive r d).1
  · rfl
  · have complete := (receive_done unsettled d).1 done
    rw [eq] at complete
    simp [Message.isPendingHeader, complete] at after

/-- A request that has received the pieces `ps`, which fall short of the whole request `b`. -/
structure Receiving (b : List UInt8) (ps : List (List UInt8)) (r : Request) : Prop where
  pieces : r = receiver.receiveChunks {} ps
  sound : r.cache.length ≤ r.cache.capacity
  raw : r.raw = ps.flatten
  short : ps.flatten.length < b.length

theorem Receiving.toReader {b : List UInt8} {ps : List (List UInt8)} {r : Request} (h : Receiving b ps r) :
    reader.Receiving b ps (reader.receiver.receiveChunks {} ps) ∧
      r = ofReception (reader.receiver.receiveChunks {} ps) := by
  have held : r = ofReception (reader.receiver.receiveChunks {} ps) :=
    h.pieces.trans (receiveChunks_ofReception {} ps)
  subst held
  exact ⟨⟨rfl, h.sound, h.raw, h.short⟩, rfl⟩

theorem receiving_ofReception {b : List UInt8} {ps : List (List UInt8)} {s : Reception StartLine}
    (h : reader.Receiving b ps s) : Receiving b ps (ofReception s) :=
  ⟨by rw [h.pieces]; exact (receiveChunks_ofReception {} ps).symm, h.sound, h.raw, h.short⟩

theorem Whole.length_pos {b : List UInt8} (whole : Whole b) : 0 < b.length :=
  whole.toReader.length_pos

section Receiving

variable {b tail d : List UInt8} {ps : List (List UInt8)} {r : Request}

theorem Receiving.unsettled (h : Receiving b ps r) (whole : Whole b) (within : ps.flatten <+: b ++ tail) :
    receiver.settled r = false := by
  obtain ⟨g, rfl⟩ := h.toReader
  exact g.unsettled whole.toReader within

theorem Receiving.receive_short (h : Receiving b ps r) (whole : Whole b)
    (within : ps.flatten ++ d <+: b ++ tail) (short : (ps.flatten ++ d).length < b.length) :
    (receiver.receive r d).1 = false ∧ (receiver.receive r d).2.state ≠ .errorSet ∧
      Receiving b (ps ++ [d]) (receiver.receive r d).2 := by
  obtain ⟨g, rfl⟩ := h.toReader
  obtain ⟨done, fine, next⟩ := g.receive_short whole.toReader within short
  rw [receive_ofReception]
  exact ⟨done, fine, receiving_ofReception next⟩

theorem Receiving.receive_long (h : Receiving b ps r) (whole : Whole b)
    (within : ps.flatten ++ d <+: b ++ tail) (long : b.length ≤ (ps.flatten ++ d).length) :
    (receiver.receive r d).1 = true ∧ Same (receiver.receive r d).2 (ofBytes b) ∧
      (receiver.receive r d).2.surplus = (ps.flatten ++ d).drop b.length := by
  obtain ⟨g, rfl⟩ := h.toReader
  obtain ⟨done, same, surplus⟩ := g.receive_long whole.toReader within long
  rw [receive_ofReception, ofBytes_eq_ofReception]
  exact ⟨done, same_ofReception same, surplus⟩

end Receiving

theorem length_surplus_lt {ps : List (List UInt8)} (unsettled : receiver.settled (receiver.receiveChunks {} ps) = false)
    (d : List UInt8) (left : (receiver.receiveChunks {} (ps ++ [d])).surplus ≠ []) :
    (receiver.receiveChunks {} (ps ++ [d])).surplus.length < d.length := by
  have fresh : ∀ cs, receiver.receiveChunks {} cs = ofReception (reader.receiver.receiveChunks {} cs) :=
    receiveChunks_ofReception {}
  rw [fresh] at unsettled left ⊢
  exact reader.length_surplus_lt unsettled d left

theorem length_of_findTerminator {b : List UInt8} {t : Nat} (found : findTerminator b 0 = some t) :
    t + 4 ≤ b.length := by
  obtain ⟨-, starts, -⟩ := findTerminator_eq_some.1 found
  have := length_of_startsWithTerminator starts
  simp only [List.length_drop] at this
  omega

theorem isPendingHeader_ofBytes (b : List UInt8) :
    (ofBytes b).isPendingHeader = true ↔ findTerminator b 0 = Option.none := by
  obtain ⟨pending, -, -⟩ := receiveChunks_take [b] 1
  simp only [List.take_one, List.head?_cons, Option.toList_some, List.flatten_cons, List.flatten_nil,
    List.append_nil, receiveChunks_singleton] at pending
  rw [pending]
  constructor
  · intro all
    cases found : findTerminator b 0 with
    | none => rfl
    | some t =>
      have := all t found
      have := length_of_findTerminator found
      omega
  · intro none t found
    rw [none] at found
    cases found

theorem exists_terminator_ofBytes {b : List UInt8} (read : (ofBytes b).isPendingHeader = false) :
    ∃ t, findTerminator b 0 = some t := by
  cases found : findTerminator b 0 with
  | none =>
    rw [(isPendingHeader_ofBytes b).2 found] at read
    cases read
  | some t => exact ⟨t, rfl⟩

/-- Bytes a connection refuses as a request: read at once their header block cannot be read, or
they run past the size limit `max` while the request still awaits its header block or the rest of
a declared body. -/
def Fails (max : Nat) (b : List UInt8) : Prop :=
  (ofBytes b).state = .errorSet ∨
    max < b.length ∧ ((ofBytes b).isPendingHeader = true ∨
      (ofBytes b).state = .pendingBody ∧ (ofBytes b).cursor.lengthGiven = true)

/-- A request line and a header with no blank line after them, past a limit of ten bytes. -/
example : Fails 10 (utf8 "GET / HTTP/1.1\r\nHost: a") :=
  Or.inr ⟨by decide +kernel, Or.inl ((isPendingHeader_ofBytes _).2 (by decide +kernel))⟩

section Fails

variable {max : Nat} {bad : List UInt8} {qs : List (List UInt8)}

theorem Fails.length_pos (fails : Fails max bad) : 0 < bad.length := by
  rcases fails with invalid | ⟨large, -⟩
  · obtain ⟨t, found⟩ := exists_terminator_ofBytes (b := bad) (by simp [Message.isPendingHeader, invalid])
    have := length_of_findTerminator found
    omega
  · omega

theorem Fails.incomplete (fails : Fails max bad) (within : qs.flatten <+: bad) :
    (receiver.receiveChunks {} qs).state ≠ .complete := by
  obtain ⟨rest, stream⟩ := within
  obtain ⟨pending, failed, framed⟩ := receiveChunks_take (qs ++ [rest]) qs.length
  have flat : (qs ++ [rest]).flatten = bad := by simp [stream]
  rw [List.take_left, flat] at pending failed framed
  intro complete
  have waiting : (receiver.receiveChunks {} qs).isPendingHeader = false := by
    simp [Message.isPendingHeader, complete]
  rcases fails with invalid | ⟨-, header | ⟨body, given⟩⟩
  · have := failed.2 ⟨invalid, waiting⟩
    rw [complete] at this
    cases this
  · have := pending.2 fun t found => by rw [(isPendingHeader_ofBytes bad).1 header] at found; cases found
    rw [waiting] at this
    cases this
  · -- the header block was read, and the declared body runs past the pieces
    obtain ⟨t, found⟩ := exists_terminator_ofBytes (b := bad) (by simp [Message.isPendingHeader, body])
    have fine : (ofBytes bad).state ≠ .errorSet := by rw [body]; decide
    have reach := ((framed t found fine (Or.inl given)).1).1 complete
    obtain ⟨-, -, whole⟩ := receiveChunks_take [bad] 1
    simp only [List.take_one, List.head?_cons, Option.toList_some, List.flatten_cons, List.flatten_nil,
      List.append_nil, receiveChunks_singleton] at whole
    have shorter : qs.flatten.length ≤ bad.length := by
      rw [← stream, List.length_append]
      omega
    have done := ((whole t found fine (Or.inl given)).1).2 (by omega)
    rw [body] at done
    cases done

theorem Fails.ends (fails : Fails max bad) (stream : qs.flatten = bad) :
    (receiver.receiveChunks {} qs).state = .errorSet ∨ max < bad.length := by
  rcases fails with invalid | ⟨large, -⟩
  · left
    obtain ⟨pending, failed, -⟩ := receiveChunks_take qs qs.length
    rw [List.take_length, stream] at pending failed
    obtain ⟨t, found⟩ := exists_terminator_ofBytes (b := bad) (by simp [Message.isPendingHeader, invalid])
    have read : (receiver.receiveChunks {} qs).isPendingHeader = false := by
      cases waiting : (receiver.receiveChunks {} qs).isPendingHeader with
      | false => rfl
      | true =>
        have := pending.1 waiting t found
        have := length_of_findTerminator found
        omega
    exact failed.2 ⟨invalid, read⟩
  · exact Or.inr large

end Fails

end Request

end Switchboard.Http
