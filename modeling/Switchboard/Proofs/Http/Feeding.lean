import Switchboard.Http.Message
/-!
# Feeding a message its bytes

The states a message passes through while it is received, as invariants of the bytes it has
received so far: waiting for the end of its header block (`HeaderPending`), and waiting for the
rest of its body (`BodyPending`). Reading the header block depends only on the bytes up to its
terminator (`receiveHeader_extends`), and a body read either leaves the body short, completes it at
its declared length, or completes a bodyless message at once.
-/
namespace Switchboard.Http
namespace Message

/-- The state of a message that has received the bytes `p` and is still waiting for the end of its
header block. -/
structure HeaderPending (p : List UInt8) (m : Message) : Prop where
  sound : m.cache.length ≤ m.cache.capacity
  raw : m.raw = p
  absent : findTerminator p 0 = none
  cursor : m.cursor = { scanFrom := rescanOffset p.length }
  headers : m.headers = {}
  cookies : m.cookies = {}
  state : m.state = if p = [] then .empty else .pendingHeader

theorem headerPending_empty : HeaderPending [] {} where
  sound := Nat.le_refl 0
  raw := rfl
  absent := rfl
  cursor := rfl
  headers := rfl
  cookies := rfl
  state := rfl

theorem isPendingHeader_of_headerPending {p : List UInt8} {m : Message} (h : HeaderPending p m) :
    m.isPendingHeader = true := by
  rw [isPendingHeader, h.state]
  split <;> rfl

theorem length_cache_of_headerPending {p : List UInt8} {m : Message} (h : HeaderPending p m) :
    m.cache.length = p.length := by
  rw [← h.raw, raw, ByteBuffer.length_bytes _ h.sound]

theorem headerPending_receiveHeader {α : Type} {p : List UInt8} {m : Message} (c : List UInt8)
    (cookieHeader : String) (read : StartLine → Except HttpError α) (h : HeaderPending p m)
    (none : findTerminator (p ++ c) 0 = none) :
    (m.receiveHeader c cookieHeader read).1 = Option.none ∧
      HeaderPending (p ++ c) (m.receiveHeader c cookieHeader read).2 := by
  have bytes : (m.cache.write c).2.bytes = p ++ c := by
    rw [ByteBuffer.bytes_write _ _ h.sound, ← raw, h.raw]
  have len : (m.cache.write c).2.length = (p ++ c).length := by
    rw [ByteBuffer.length_write, length_cache_of_headerPending h, List.length_append]
  have scan : findTerminator (m.cache.write c).2.bytes m.cursor.scanFrom = Option.none := by
    rw [bytes, h.cursor, findTerminator_rescanOffset c h.absent, none]
  simp only [receiveHeader, scan, true_and]
  have sound := ByteBuffer.length_le_capacity_write m.cache c h.sound
  have cursor : ({ m.cursor with scanFrom := rescanOffset (m.cache.write c).2.length } : BodyCursor) =
      { scanFrom := rescanOffset (p ++ c).length } := by
    rw [len, h.cursor]
  by_cases empty : p ++ c = []
  · have isEmpty : (m.cache.write c).2.isEmpty = true := by
      simp [ByteBuffer.isEmpty, len, empty]
    obtain ⟨first, second⟩ := List.append_eq_nil_iff.1 empty
    simp only [isEmpty, if_true]
    exact ⟨sound, bytes, none, cursor, h.headers, h.cookies, by simp [h.state, first, second]⟩
  · have isEmpty : (m.cache.write c).2.isEmpty = false := by
      simp only [ByteBuffer.isEmpty, len, beq_eq_false_iff_ne, ne_eq, List.length_eq_zero_iff]
      exact empty
    simp only [isEmpty, Bool.false_eq_true, if_false]
    exact ⟨sound, bytes, none, cursor, h.headers, h.cookies, by simp [empty]⟩

/-- A message `m'` extends `m` by the bytes `rest` when it has received them after everything `m`
has received, and agrees with `m` on the fields and on the body's position and declared length. -/
structure Extends (rest : List UInt8) (m m' : Message) : Prop where
  raw : m'.raw = m.raw ++ rest
  headers : m'.headers = m.headers
  cookies : m'.cookies = m.cookies
  index : m'.cursor.index = m.cursor.index
  length : m'.cursor.length = m.cursor.length
  lengthGiven : m'.cursor.lengthGiven = m.cursor.lengthGiven

theorem bytes_write_of_headerPending {p : List UInt8} {m : Message} (c : List UInt8)
    (h : HeaderPending p m) : (m.cache.write c).2.bytes = p ++ c := by
  rw [ByteBuffer.bytes_write _ _ h.sound, ← raw, h.raw]

theorem findTerminator_of_headerPending {p : List UInt8} {m : Message} (c : List UInt8)
    (h : HeaderPending p m) :
    findTerminator (m.cache.write c).2.bytes m.cursor.scanFrom = findTerminator (p ++ c) 0 := by
  rw [bytes_write_of_headerPending c h, h.cursor, findTerminator_rescanOffset c h.absent]

/-- Two messages waiting for their header block read the same block once its terminator has
arrived, whatever they had received before and whatever else arrived with it. -/
theorem receiveHeader_extends {α : Type} (cookieHeader : String) (read : StartLine → Except HttpError α)
    {p p' c c' rest : List UInt8} {m m' : Message} {t : Nat} (h : HeaderPending p m)
    (h' : HeaderPending p' m') (found : findTerminator (p ++ c) 0 = some t)
    (same : p ++ c ++ rest = p' ++ c') :
    (m.receiveHeader c cookieHeader read).1 = (m'.receiveHeader c' cookieHeader read).1 ∧
      Extends rest (m.receiveHeader c cookieHeader read).2 (m'.receiveHeader c' cookieHeader read).2 ∧
      (m'.receiveHeader c' cookieHeader read).2.state = (m.receiveHeader c cookieHeader read).2.state := by
  have found' : findTerminator (p' ++ c') 0 = some t := by
    rw [← same]
    exact findTerminator_append_of_eq_some rest found
  have fits := length_of_startsWithTerminator (findTerminator_eq_some.1 found).2.1
  simp only [List.length_drop] at fits
  have block : (p' ++ c').take (t + 2) = (p ++ c).take (t + 2) := by
    rw [← same, List.take_append_of_le_length (by omega)]
  have raw : (m'.cache.write c').2.bytes = (m.cache.write c).2.bytes ++ rest := by
    rw [bytes_write_of_headerPending c h, bytes_write_of_headerPending c' h', same]
  have scan : findTerminator (m.cache.write c).2.bytes m.cursor.scanFrom = some t := by
    rw [findTerminator_of_headerPending c h, found]
  have scan' : findTerminator (m'.cache.write c').2.bytes m'.cursor.scanFrom = some t := by
    rw [findTerminator_of_headerPending c' h', found']
  simp only [receiveHeader, scan, scan']
  simp only [bytes_write_of_headerPending c h, bytes_write_of_headerPending c' h', block]
  split
  next e start =>
    exact ⟨rfl, ⟨raw, rfl, rfl, by simp [BodyCursor.resetLength, h.cursor, h'.cursor], rfl, rfl⟩, rfl⟩
  next line a start =>
    split
    next e lines =>
      exact ⟨rfl, ⟨raw, rfl, rfl, by simp [BodyCursor.resetLength, h.cursor, h'.cursor], rfl, rfl⟩, rfl⟩
    next declared lines =>
      have length : (m'.cursor.resetLength.setContentLength declared).length =
          (m.cursor.resetLength.setContentLength declared).length := by
        cases declared <;> simp [BodyCursor.resetLength, BodyCursor.setContentLength, h.cursor, h'.cursor]
      have given : (m'.cursor.resetLength.setContentLength declared).lengthGiven =
          (m.cursor.resetLength.setContentLength declared).lengthGiven := by
        cases declared <;> simp [BodyCursor.resetLength, BodyCursor.setContentLength, h.cursor, h'.cursor]
      exact ⟨rfl, ⟨raw, rfl, rfl, rfl, length, given⟩, rfl⟩

/-- A message whose header block has been read and whose body is still to come: it has received
the bytes `q`, and the body held so far runs from its index to their end. -/
structure BodyPending (q : List UInt8) (m : Message) : Prop where
  sound : m.cache.length ≤ m.cache.capacity
  raw : m.raw = q
  state : m.state = .pendingBody
  size : m.cursor.index + m.cursor.size = q.length

theorem isPendingHeader_of_bodyPending {q : List UInt8} {m : Message} (h : BodyPending q m) :
    m.isPendingHeader = false := by
  rw [isPendingHeader, h.state]
  rfl

theorem receiveHeader_of_found {α : Type} (cookieHeader : String) (read : StartLine → Except HttpError α)
    {p c : List UInt8} {m : Message} {t : Nat} (h : HeaderPending p m)
    (found : findTerminator (p ++ c) 0 = some t) :
    ((m.receiveHeader c cookieHeader read).1 = none →
        (m.receiveHeader c cookieHeader read).2.state = .errorSet) ∧
      ((m.receiveHeader c cookieHeader read).1.isSome →
        BodyPending (p ++ c) (m.receiveHeader c cookieHeader read).2 ∧
          (m.receiveHeader c cookieHeader read).2.cursor.index = t + 4) := by
  have fits := length_of_startsWithTerminator (findTerminator_eq_some.1 found).2.1
  simp only [List.length_drop] at fits
  have scan : findTerminator (m.cache.write c).2.bytes m.cursor.scanFrom = some t := by
    rw [findTerminator_of_headerPending c h, found]
  have sound := ByteBuffer.length_le_capacity_write m.cache c h.sound
  have size : (m.cache.write c).2.length = (p ++ c).length := by
    rw [ByteBuffer.length_write, length_cache_of_headerPending h, List.length_append]
  simp only [receiveHeader, scan]
  split
  next => simp
  next line a start =>
    split
    next => simp
    next declared lines =>
      refine ⟨by simp, fun _ => ⟨⟨sound, bytes_write_of_headerPending c h, rfl, ?_⟩, rfl⟩⟩
      simp only [size]
      omega

theorem Extends.trans {m m' m'' : Message} {a b : List UInt8} (h : Extends a m m')
    (h' : Extends b m' m'') : Extends (a ++ b) m m'' :=
  ⟨by rw [h'.raw, h.raw, List.append_assoc], h'.headers.trans h.headers, h'.cookies.trans h.cookies,
    h'.index.trans h.index, h'.length.trans h.length, h'.lengthGiven.trans h.lengthGiven⟩

theorem raw_receiveBody {q : List UInt8} {m : Message} (c : List UInt8) (bodyless : Bool)
    (h : BodyPending q m) : (m.receiveBody c bodyless).2.raw = q ++ c := by
  rw [← h.raw]
  exact ByteBuffer.bytes_write _ _ h.sound

theorem lengthGiven_receiveBody (m : Message) (c : List UInt8) (bodyless : Bool) :
    (m.receiveBody c bodyless).2.cursor.lengthGiven = m.cursor.lengthGiven :=
  BodyCursor.lengthGiven_feed _ _ _ _

theorem receiveBody_short {q : List UInt8} {m : Message} (c : List UInt8) (bodyless : Bool)
    (h : BodyPending q m) (given : m.cursor.lengthGiven = true)
    (short : (q ++ c).length < m.cursor.index + m.cursor.length) :
    (m.receiveBody c bodyless).1 = false ∧ BodyPending (q ++ c) (m.receiveBody c bodyless).2 ∧
      Extends c m (m.receiveBody c bodyless).2 := by
  have raw := raw_receiveBody c bodyless h
  have size := h.size
  simp only [List.length_append] at short
  have fed : m.cursor.feed (m.cache.write c).2.bytes c.length bodyless =
      (false, { m.cursor with size := m.cursor.size + c.length }) := by
    rw [BodyCursor.feed_of_lengthGiven _ _ _ _ given, if_neg (by omega)]
  have eq : m.receiveBody c bodyless =
      (false, { m with cache := (m.cache.write c).2,
                       cursor := { m.cursor with size := m.cursor.size + c.length } }) := by
    simp only [receiveBody, fed]
    rfl
  rw [eq] at raw ⊢
  refine ⟨rfl, ⟨ByteBuffer.length_le_capacity_write _ _ h.sound, raw, h.state, ?_⟩,
    ⟨by rw [raw, h.raw], rfl, rfl, rfl, rfl, rfl⟩⟩
  simp only [List.length_append]
  omega

theorem receiveBody_full {q : List UInt8} {m : Message} (c : List UInt8) (bodyless : Bool)
    (h : BodyPending q m) (given : m.cursor.lengthGiven = true)
    (full : m.cursor.index + m.cursor.length ≤ (q ++ c).length) :
    (m.receiveBody c bodyless).1 = true ∧ (m.receiveBody c bodyless).2.state = .complete ∧
      (m.receiveBody c bodyless).2.cursor.size = m.cursor.length ∧
      Extends c m (m.receiveBody c bodyless).2 := by
  have raw := raw_receiveBody c bodyless h
  have size := h.size
  simp only [List.length_append] at full
  have fed : m.cursor.feed (m.cache.write c).2.bytes c.length bodyless =
      (true, { m.cursor with size := m.cursor.length }) := by
    rw [BodyCursor.feed_of_lengthGiven _ _ _ _ given, if_pos (by omega)]
  have eq : m.receiveBody c bodyless =
      (true, { m with cache := (m.cache.write c).2, cursor := { m.cursor with size := m.cursor.length },
                      state := .complete }) := by
    simp only [receiveBody, fed]
    rfl
  rw [eq] at raw ⊢
  exact ⟨rfl, rfl, rfl, ⟨by rw [raw, h.raw], rfl, rfl, rfl, rfl, rfl⟩⟩

theorem receiveBody_bodyless {q : List UInt8} {m : Message} (c : List UInt8) (h : BodyPending q m)
    (given : m.cursor.lengthGiven = false) :
    (m.receiveBody c true).1 = true ∧ (m.receiveBody c true).2.state = .complete ∧
      (m.receiveBody c true).2.cursor.size = 0 ∧ (m.receiveBody c true).2.cursor.length = 0 ∧
      (m.receiveBody c true).2.raw = q ++ c ∧ (m.receiveBody c true).2.headers = m.headers ∧
      (m.receiveBody c true).2.cookies = m.cookies ∧
      (m.receiveBody c true).2.cursor.index = m.cursor.index := by
  have raw := raw_receiveBody c true h
  have eq : m.receiveBody c true =
      (true, { m with cache := (m.cache.write c).2, cursor := { m.cursor with length := 0, size := 0 },
                      state := .complete }) := by
    simp only [receiveBody, BodyCursor.feed_bodyless _ _ _ given]
    rfl
  rw [eq] at raw ⊢
  exact ⟨rfl, rfl, rfl, rfl, raw, rfl, rfl, rfl⟩

theorem receiveBody_unframed {q : List UInt8} {m : Message} (c : List UInt8) (h : BodyPending q m)
    (given : m.cursor.lengthGiven = false) :
    (m.receiveBody c false).2.surplus = [] ∧
      ((m.receiveBody c false).1 = false → BodyPending (q ++ c) (m.receiveBody c false).2) := by
  have raw := raw_receiveBody c false h
  have size : (m.cursor.feed (m.cache.write c).2.bytes c.length false).2.size = m.cursor.size + c.length := by
    simp only [BodyCursor.feed, given, Bool.false_eq_true, if_false]
    split <;> rfl
  have ends : (m.receiveBody c false).2.cursor.index + (m.receiveBody c false).2.cursor.size = (q ++ c).length := by
    simp only [receiveBody, BodyCursor.index_feed, size, List.length_append, ← h.size]
    omega
  refine ⟨?_, fun waiting => ⟨ByteBuffer.length_le_capacity_write _ _ h.sound, raw, ?_, ends⟩⟩
  · unfold surplus
    split
    · rw [BodyCursor.surplus, BodyCursor.stop, ends, raw, Nat.min_self, List.drop_length]
    · rfl
  · simp only [receiveBody] at waiting ⊢
    simp [waiting, h.state]

end Message

theorem BodyCursor.body_eq_of_prefix {c c' : BodyCursor} {r r' : List UInt8} (index : c.index = c'.index)
    (size : c.size = c'.size) (pre : r <+: r') (fits : c.index + c.size ≤ r.length) :
    c.body r = c'.body r' := by
  obtain ⟨u, rfl⟩ := pre
  simp only [BodyCursor.body, BodyCursor.stop, ← index, ← size, List.length_append]
  rw [Nat.min_eq_left fits, Nat.min_eq_left (by omega), List.take_append_of_le_length fits]

end Switchboard.Http
