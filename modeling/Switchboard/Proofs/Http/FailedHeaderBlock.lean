import Mathlib
import Switchboard.Proofs.Http.Feeding
import Switchboard.Proofs.Http.WholeRequest
import Switchboard.Http.Request
import Switchboard.Http.Response
/-!
# A header block that cannot be read stays unread

A message left in the error state by a block it cannot read finds the same terminator and fails
the same way on every later feed, with every field as it was (`Message.Stuck.receiveHeader`,
`header_block_errors_are_permanent`).
-/
namespace Switchboard.Http

@[simp] theorem BodyCursor.scanFrom_resetLength (c : BodyCursor) : c.resetLength.scanFrom = c.scanFrom := rfl

@[simp] theorem BodyCursor.resetLength_resetLength (c : BodyCursor) :
    c.resetLength.resetLength = c.resetLength := rfl

namespace Message

theorem write_nil (b : ByteBuffer) : b.write [] = (0, b) := rfl

section Stuck

variable {α : Type} (cookieHeader : String) (read : StartLine → Except HttpError α)

theorem receiveHeader_eq (m : Message) (c : List UInt8) :
    m.receiveHeader c cookieHeader read =
      { m with cache := (m.cache.write c).2 }.receiveHeader [] cookieHeader read := rfl

/-- A message stuck on a header block it cannot read: its bytes lie within their allocation and
hold a terminator at or after the scan position, and reading the block again fails and changes
nothing. -/
structure Stuck (m : Message) : Prop where
  sound : m.cache.length ≤ m.cache.capacity
  found : (findTerminator m.raw m.cursor.scanFrom).isSome
  again : m.receiveHeader [] cookieHeader read = (none, m)

variable {cookieHeader read}

theorem Stuck.reread {m : Message} (h : m.Stuck cookieHeader read) (c : List UInt8) :
    { m with cache := (m.cache.write c).2 }.receiveHeader [] cookieHeader read =
      (none, { m with cache := (m.cache.write c).2 }) := by
  obtain ⟨t, found⟩ := Option.isSome_iff_exists.1 h.found
  have fits := length_of_startsWithTerminator (findTerminator_eq_some.1 found).2.1
  simp only [List.length_drop] at fits
  have raw : (m.cache.write c).2.bytes = m.raw ++ c := ByteBuffer.bytes_write _ _ h.sound
  have again := h.again
  simp only [receiveHeader, write_nil] at again ⊢
  rw [raw, findTerminator_append_of_eq_some c found]
  rw [show m.cache.bytes = m.raw from rfl, found] at again
  dsimp only at again ⊢
  rw [List.take_append_of_le_length (by omega)]
  generalize (m.cache.write c).2 = cache' at *
  rcases m with ⟨cache, headers, cookies, cursor, state⟩
  -- the two reads take the same branch; the failing ones agree on every field but the bytes
  revert again
  split
  · intro again
    simpa using again
  · split
    · intro again
      simpa using again
    · simp

/-- A stuck message fed any bytes answers nothing and appends them, keeping every other field,
and stays stuck. -/
theorem Stuck.receiveHeader {m : Message} (h : m.Stuck cookieHeader read) (c : List UInt8) :
    m.receiveHeader c cookieHeader read = (none, { m with cache := (m.cache.write c).2 }) ∧
      Stuck cookieHeader read { m with cache := (m.cache.write c).2 } := by
  obtain ⟨t, found⟩ := Option.isSome_iff_exists.1 h.found
  have raw : (m.cache.write c).2.bytes = m.raw ++ c := ByteBuffer.bytes_write _ _ h.sound
  refine ⟨by rw [receiveHeader_eq]; exact h.reread c, ByteBuffer.length_le_capacity_write _ _ h.sound, ?_,
    h.reread c⟩
  show (findTerminator (m.cache.write c).2.bytes m.cursor.scanFrom).isSome
  rw [raw, findTerminator_append_of_eq_some c found]
  rfl

/-- A header feed that leaves a message in the error state holding bytes has found a block it
cannot read: the message is stuck on it. -/
theorem stuck_of_receiveHeader {m : Message} (sound : m.cache.length ≤ m.cache.capacity) (c : List UInt8)
    (failed : (m.receiveHeader c cookieHeader read).2.state = .errorSet)
    (held : (m.receiveHeader c cookieHeader read).2.cache.length ≠ 0) :
    Stuck cookieHeader read (m.receiveHeader c cookieHeader read).2 := by
  have sound' := ByteBuffer.length_le_capacity_write _ c sound
  revert failed held
  simp only [receiveHeader]
  split
  · -- no terminator: a message holding bytes waits for the rest of its header block
    split <;> simp_all [ByteBuffer.isEmpty]
  · next t found =>
    split
    · next e start =>
      intro _ _
      refine ⟨sound', by simp [raw, found], ?_⟩
      simp [receiveHeader, write_nil, found, start]
    · next line a start =>
      split
      · next e lines =>
        intro _ _
        refine ⟨sound', by simp [raw, found], ?_⟩
        simp [receiveHeader, write_nil, found, start, lines]
      · simp

end Stuck

/-! ## What operations keep -/

/-- What every message that operations make from a fresh one satisfies: its bytes lie within
their allocation, and it holds bytes whenever it is in the error state. -/
structure WellFormed (m : Message) : Prop where
  sound : m.cache.length ≤ m.cache.capacity
  held : m.state = .errorSet → m.cache.length ≠ 0

theorem wellFormed_empty : WellFormed {} := ⟨Nat.le_refl 0, by simp⟩

theorem WellFormed.write {m m' : Message} (h : m.WellFormed) (bytes : List UInt8)
    (cache : m'.cache = (m.cache.write bytes).2) (state : m'.state = .errorSet → m.state = .errorSet) :
    m'.WellFormed := by
  refine ⟨cache ▸ ByteBuffer.length_le_capacity_write _ _ h.sound, fun failed => ?_⟩
  have held := h.held (state failed)
  rw [cache, ByteBuffer.length_write]
  omega

theorem WellFormed.writeText {m : Message} (h : m.WellFormed) (s : String) : (m.writeText s).WellFormed :=
  h.write _ rfl id

theorem WellFormed.addHeader {m : Message} (h : m.WellFormed) (name value : String) :
    (m.addHeader name value).WellFormed :=
  h.write _ rfl id

theorem wellFormed_clear (m : Message) : m.clear.WellFormed := ⟨Nat.zero_le _, by simp [clear]⟩

theorem WellFormed.setBody {m : Message} (h : m.WellFormed) (body : List UInt8) : (m.setBody body).WellFormed :=
  ((h.addHeader _ _).writeText crlf).write body rfl fun failed =>
    absurd ((show (m.setBody body).state = .complete from rfl).symm.trans failed) (by decide)

theorem WellFormed.setBodyLength {m : Message} (h : m.WellFormed) (length : Nat) :
    (m.setBodyLength length).WellFormed :=
  ((h.addHeader _ _).writeText crlf).write [] rfl fun failed =>
    absurd ((show (m.setBodyLength length).state = .pendingBody from rfl).symm.trans failed) (by decide)

theorem WellFormed.receiveBody {m : Message} (h : m.WellFormed) (bytes : List UInt8) (bodyless : Bool) :
    (m.receiveBody bytes bodyless).2.WellFormed := by
  refine h.write bytes rfl fun failed => ?_
  simp only [Message.receiveBody] at failed
  split at failed
  · cases failed
  · exact failed

theorem WellFormed.receiveHeader {α : Type} {cookieHeader : String} {read : StartLine → Except HttpError α}
    {m : Message} (h : m.WellFormed) (c : List UInt8) : (m.receiveHeader c cookieHeader read).2.WellFormed := by
  have sound := ByteBuffer.length_le_capacity_write _ c h.sound
  refine ⟨by rw [cache_receiveHeader]; exact sound, fun failed => ?_⟩
  rw [cache_receiveHeader, ByteBuffer.length_write]
  revert failed
  simp only [Message.receiveHeader]
  split
  · -- no terminator: the error state, if any, is the one the message was in
    split
    · intro failed
      have := h.held failed
      omega
    · simp
  · -- a terminator: the bytes hold at least its four
    next t found =>
    intro _
    have fits := length_of_startsWithTerminator (findTerminator_eq_some.1 found).2.1
    rw [List.length_drop, ByteBuffer.length_bytes _ sound, ByteBuffer.length_write] at fits
    omega

end Message

/-! ## Requests and responses -/

namespace Request

/-- The requests that operations make from a fresh one. -/
inductive Reachable : Request → Prop
  | fresh : Reachable {}
  | perform {r : Request} (c : Command) : Reachable r → Reachable (r.perform c).2

theorem toMessage_receiveHeader (r : Request) (c : List UInt8) :
    (r.receiveHeader c).2.toMessage = (r.toMessage.receiveHeader c "Cookie" Except.ok).2 := by
  unfold receiveHeader
  split <;> next found => simp [found]

theorem wellFormed_perform {r : Request} (h : r.toMessage.WellFormed) (c : Command) :
    (r.perform c).2.toMessage.WellFormed := by
  cases c with
  | receiveHeader b => simpa [perform, toMessage_receiveHeader] using h.receiveHeader b
  | receiveBody b => exact h.receiveBody b _
  | clear => exact Message.wellFormed_clear _
  | setBegin method url => exact (Message.wellFormed_clear _).writeText _
  | setHeader name value => exact h.addHeader name value
  | setCookie name value => exact h.write _ rfl id
  | setBody b => exact h.setBody b
  | setBodyLength n => exact h.setBodyLength n
  | make method url => exact ((Message.wellFormed_clear _).writeText _).setBody []
  | makeContent method url content contentType =>
    simp only [perform, makeContent]
    split
    · exact ((Message.wellFormed_clear _).writeText _).setBody content
    · exact (((Message.wellFormed_clear _).writeText _).addHeader _ _).setBody content

/-- Every request that operations make from a fresh one is well formed. -/
theorem Reachable.wellFormed {r : Request} (h : r.Reachable) : r.toMessage.WellFormed := by
  induction h with
  | fresh => exact Message.wellFormed_empty
  | perform c _ ih => exact wellFormed_perform ih c

theorem Reachable.stuck {r : Request} (h : r.Reachable) {b : List UInt8}
    (failed : (r.receiveHeader b).2.state = .errorSet) :
    (r.receiveHeader b).2.toMessage.Stuck "Cookie" Except.ok := by
  have wf := h.wellFormed
  rw [toMessage_receiveHeader] at failed ⊢
  exact Message.stuck_of_receiveHeader wf.sound b failed ((wf.receiveHeader b).held failed)

theorem stuck_receiveHeaders {r : Request} (h : r.toMessage.Stuck "Cookie" Except.ok) (later : List (List UInt8))
    (c : List UInt8) :
    ∃ cache : ByteBuffer, cache.bytes = r.raw ++ later.flatten ++ c ∧
      (later.foldl (fun r d => (r.receiveHeader d).2) r).receiveHeader c = (false, { r with cache }) := by
  -- induction on the pieces: each feed appends its bytes to a request that stays stuck
  induction later generalizing r with
  | nil =>
    refine ⟨(r.cache.write c).2, ?_, ?_⟩
    · rw [List.flatten_nil, List.append_nil]
      exact ByteBuffer.bytes_write _ _ h.sound
    · simp only [List.foldl_nil, receiveHeader, (h.receiveHeader c).1]
  | cons d later ih =>
    have fed : (r.receiveHeader d).2 = { r with cache := (r.cache.write d).2 } := by
      simp only [receiveHeader, (h.receiveHeader d).1]
    obtain ⟨cache, bytes, run⟩ := ih (r := { r with cache := (r.cache.write d).2 }) (h.receiveHeader d).2
    refine ⟨cache, ?_, by rw [List.foldl_cons, fed, run]⟩
    rw [bytes, show ({ r with cache := (r.cache.write d).2 } : Request).raw = r.raw ++ d from
      ByteBuffer.bytes_write _ _ h.sound]
    simp

end Request

namespace Response

/-- The responses that operations make from a fresh one. -/
inductive Reachable : Response → Prop
  | fresh : Reachable {}
  | perform {r : Response} (c : Command) : Reachable r → Reachable (r.perform c).2

def readLine (line : StartLine) : Except HttpError (StartLine × Nat) := (readStatus line).map (line, ·)

theorem toMessage_receiveHeader (r : Response) (c : List UInt8) :
    (r.receiveHeader c).2.toMessage = (r.toMessage.receiveHeader c "Set-Cookie" readLine).2 := by
  unfold receiveHeader readLine
  split <;> next found => simp [found]

theorem wellFormed_perform {r : Response} (h : r.toMessage.WellFormed) (c : Command) :
    (r.perform c).2.toMessage.WellFormed := by
  have begun : ∀ (status : Nat) (protocol : String), (r.setBeginWith status protocol).toMessage.WellFormed :=
    fun _ _ => (Message.wellFormed_clear _).writeText _
  cases c with
  | receiveHeader b => simpa [perform, toMessage_receiveHeader] using h.receiveHeader b
  | receiveBody b => exact h.receiveBody b _
  | clear => exact Message.wellFormed_clear _
  | setBegin status protocol => exact begun status protocol
  | setHeader name value => exact h.addHeader name value
  | setCookie c => exact h.write _ rfl id
  | setBody b => exact h.setBody b
  | setBodyLength n => exact h.setBodyLength n
  | makeOk => exact (begun _ _).setBody []
  | makeError status content => exact ((begun _ _).addHeader _ _).setBody _
  | makeGet content contentType =>
    simp only [perform, makeGet]
    split
    · exact (begun _ _).setBody content
    · exact ((begun _ _).addHeader _ _).setBody content
  | makeOptions => exact ((begun _ _).addHeader _ _).setBody []
  | makeTrace q => exact ((begun _ _).addHeader _ _).setBody q

/-- Every response that operations make from a fresh one is well formed. -/
theorem Reachable.wellFormed {r : Response} (h : r.Reachable) : r.toMessage.WellFormed := by
  induction h with
  | fresh => exact Message.wellFormed_empty
  | perform c _ ih => exact wellFormed_perform ih c

theorem Reachable.stuck {r : Response} (h : r.Reachable) {b : List UInt8}
    (failed : (r.receiveHeader b).2.state = .errorSet) :
    (r.receiveHeader b).2.toMessage.Stuck "Set-Cookie" readLine := by
  have wf := h.wellFormed
  rw [toMessage_receiveHeader] at failed ⊢
  exact Message.stuck_of_receiveHeader wf.sound b failed ((wf.receiveHeader b).held failed)

theorem stuck_receiveHeaders {r : Response} (h : r.toMessage.Stuck "Set-Cookie" readLine)
    (later : List (List UInt8)) (c : List UInt8) :
    ∃ cache : ByteBuffer, cache.bytes = r.raw ++ later.flatten ++ c ∧
      (later.foldl (fun r d => (r.receiveHeader d).2) r).receiveHeader c = (false, { r with cache }) := by
  induction later generalizing r with
  | nil =>
    refine ⟨(r.cache.write c).2, ?_, ?_⟩
    · rw [List.flatten_nil, List.append_nil]
      exact ByteBuffer.bytes_write _ _ h.sound
    · simp only [List.foldl_nil, receiveHeader,
        show (fun line => (readStatus line).map (line, ·)) = readLine from rfl, (h.receiveHeader c).1]
  | cons d later ih =>
    have fed : (r.receiveHeader d).2 = { r with cache := (r.cache.write d).2 } := by
      simp only [receiveHeader, show (fun line => (readStatus line).map (line, ·)) = readLine from rfl,
        (h.receiveHeader d).1]
    obtain ⟨cache, bytes, run⟩ := ih (r := { r with cache := (r.cache.write d).2 }) (h.receiveHeader d).2
    refine ⟨cache, ?_, by rw [List.foldl_cons, fed, run]⟩
    rw [bytes, show ({ r with cache := (r.cache.write d).2 } : Response).raw = r.raw ++ d from
      ByteBuffer.bytes_write _ _ h.sound]
    simp

end Response

/-- A header block that cannot be read is a permanent error of header feeding. Once a header feed
leaves a request or a response that operations have made in the error state, every later header
feed, after any number of them, answers false and leaves it as that failed feed left it, with the
bytes fed since appended: the error state, the start line's fields, the headers, the cookies and
the body cursor with its scan position all stay. -/
theorem header_block_errors_are_permanent :
    (∀ r : Request, r.Reachable → ∀ b, (r.receiveHeader b).2.state = .errorSet →
      ∀ (later : List (List UInt8)) (c : List UInt8), ∃ cache : ByteBuffer,
        cache.bytes = (r.receiveHeader b).2.raw ++ later.flatten ++ c ∧
        (later.foldl (fun r d => (r.receiveHeader d).2) (r.receiveHeader b).2).receiveHeader c =
          (false, { (r.receiveHeader b).2 with cache })) ∧
    (∀ r : Response, r.Reachable → ∀ b, (r.receiveHeader b).2.state = .errorSet →
      ∀ (later : List (List UInt8)) (c : List UInt8), ∃ cache : ByteBuffer,
        cache.bytes = (r.receiveHeader b).2.raw ++ later.flatten ++ c ∧
        (later.foldl (fun r d => (r.receiveHeader d).2) (r.receiveHeader b).2).receiveHeader c =
          (false, { (r.receiveHeader b).2 with cache })) :=
  ⟨fun _ reachable _ failed => Request.stuck_receiveHeaders (reachable.stuck failed),
    fun _ reachable _ failed => Response.stuck_receiveHeaders (reachable.stuck failed)⟩

/-- A fresh request given a start line without spaces, and a fresh response given a status line
without a status, are refused, and stay refused when a whole request line follows. -/
theorem unreadable_start_lines_stay_refused :
    Request.Reachable {} ∧ (({} : Request).receiveHeader (utf8 "x\r\n\r\n")).2.state = .errorSet ∧
      (∃ cache : ByteBuffer, cache.bytes = (({} : Request).receiveHeader (utf8 "x\r\n\r\n")).2.raw ++
          [utf8 "GET / HTTP/1.1\r\n"].flatten ++ utf8 "\r\n" ∧
        ([utf8 "GET / HTTP/1.1\r\n"].foldl (fun r d => (r.receiveHeader d).2)
            (({} : Request).receiveHeader (utf8 "x\r\n\r\n")).2).receiveHeader (utf8 "\r\n") =
          (false, { (({} : Request).receiveHeader (utf8 "x\r\n\r\n")).2 with cache })) ∧
      Response.Reachable {} ∧ (({} : Response).receiveHeader (utf8 "HTTP/1.1\r\n\r\n")).2.state = .errorSet ∧
      (∃ cache : ByteBuffer, cache.bytes = (({} : Response).receiveHeader (utf8 "HTTP/1.1\r\n\r\n")).2.raw ++
          [utf8 "HTTP/1.1 200 OK\r\n"].flatten ++ utf8 "\r\n" ∧
        ([utf8 "HTTP/1.1 200 OK\r\n"].foldl (fun r d => (r.receiveHeader d).2)
            (({} : Response).receiveHeader (utf8 "HTTP/1.1\r\n\r\n")).2).receiveHeader (utf8 "\r\n") =
          (false, { (({} : Response).receiveHeader (utf8 "HTTP/1.1\r\n\r\n")).2 with cache })) := by
  have request : (({} : Request).receiveHeader (utf8 "x\r\n\r\n")).2.state = .errorSet := by decide +kernel
  have response : (({} : Response).receiveHeader (utf8 "HTTP/1.1\r\n\r\n")).2.state = .errorSet := by
    decide +kernel
  exact ⟨.fresh, request, header_block_errors_are_permanent.1 {} .fresh _ request _ _, .fresh, response,
    header_block_errors_are_permanent.2 {} .fresh _ response _ _⟩

end Switchboard.Http
