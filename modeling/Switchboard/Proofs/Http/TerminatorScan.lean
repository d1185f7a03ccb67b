import Switchboard.Http.Message
/-!
# Resuming the terminator search

Each read resumes the search for the CR LF CR LF that ends a header block three bytes before the end
of what came before. Reading a header block in any reads finds the first terminator of all their
bytes, the same one for every split (`header_scan_finds_the_first_terminator`).
-/
namespace Switchboard.Http

def TerminatorAt (bytes : List UInt8) (i : Nat) : Prop := (bytes.drop i).take 4 = [13, 10, 13, 10]

instance (bytes : List UInt8) (i : Nat) : Decidable (TerminatorAt bytes i) :=
  inferInstanceAs (Decidable (_ = _))

def FirstTerminator (bytes : List UInt8) (t : Nat) : Prop :=
  TerminatorAt bytes t ∧ ∀ i < t, ¬TerminatorAt bytes i

theorem startsWithTerminator_eq_true_iff (l : List UInt8) :
    startsWithTerminator l = true ↔ l.take 4 = [13, 10, 13, 10] := by
  match l with
  | [] | [_] | [_, _] | [_, _, _] => simp [startsWithTerminator]
  | a :: b :: c :: d :: rest =>
    unfold startsWithTerminator
    split
    next => simp_all
    next _ notTerminator =>
      simp only [Bool.false_eq_true, false_iff, List.take_succ_cons, List.take_zero, List.cons.injEq,
        and_true, not_and]
      intro ha hb hc hd
      exact notTerminator rest (by rw [ha, hb, hc, hd])

theorem terminatorAt_iff (bytes : List UInt8) (i : Nat) :
    TerminatorAt bytes i ↔ startsWithTerminator (bytes.drop i) = true :=
  (startsWithTerminator_eq_true_iff _).symm

theorem terminatorAt_append_of_le {p : List UInt8} (more : List UInt8) {i : Nat}
    (fits : i + 4 ≤ p.length) : TerminatorAt (p ++ more) i ↔ TerminatorAt p i := by
  rw [TerminatorAt, TerminatorAt, List.drop_append_of_le_length (by omega),
    List.take_append_of_le_length (by simp; omega)]

/-- The search from `start` answers the least offset at or after it where CR LF CR LF begins. -/
theorem findTerminator_eq_some_iff_first {buf : List UInt8} {start t : Nat} :
    findTerminator buf start = some t ↔
      start ≤ t ∧ TerminatorAt buf t ∧ ∀ i, start ≤ i → i < t → ¬TerminatorAt buf i := by
  simp only [findTerminator_eq_some, terminatorAt_iff, Bool.not_eq_true]

theorem findTerminator_eq_none_iff_absent {buf : List UInt8} {start : Nat} :
    findTerminator buf start = none ↔ ∀ i, start ≤ i → ¬TerminatorAt buf i := by
  simp only [findTerminator_eq_none, terminatorAt_iff, Bool.not_eq_true]

theorem findTerminator_zero_eq_some_iff {buf : List UInt8} {t : Nat} :
    findTerminator buf 0 = some t ↔ FirstTerminator buf t := by
  simp [findTerminator_eq_some_iff_first, FirstTerminator]

/-! ## One read of a waiting scan -/

/-- A header scan still waiting for its terminator after it was fed the bytes `p`: the cache holds
them, none of them begins a terminator, and the cursor is three bytes before their end (at zero
while there are fewer than three). -/
structure Scanning (p : List UInt8) (cache : ByteBuffer) (cursor : BodyCursor) : Prop where
  sound : cache.length ≤ cache.capacity
  bytes : cache.bytes = p
  absent : ∀ i, ¬TerminatorAt p i
  cursor : cursor = { scanFrom := p.length - 3 }

theorem scanning_start (cache : ByteBuffer) (empty : cache.length = 0) : Scanning [] cache {} where
  sound := by omega
  bytes := by simp [ByteBuffer.bytes, empty]
  absent i := by simp [TerminatorAt]
  cursor := rfl

section Scanning

variable {p : List UInt8} {cache : ByteBuffer} {cursor : BodyCursor}

theorem Scanning.length (h : Scanning p cache cursor) : cache.length = p.length := by
  rw [← h.bytes, ByteBuffer.length_bytes _ h.sound]

theorem Scanning.scanFrom_le (h : Scanning p cache cursor) (more : List UInt8) {i : Nat}
    (found : TerminatorAt (p ++ more) i) : cursor.scanFrom ≤ i := by
  rw [h.cursor]
  show p.length - 3 ≤ i
  apply Nat.le_of_not_lt
  intro early
  exact h.absent i ((terminatorAt_append_of_le more (by omega)).1 found)

theorem Scanning.bytes_write (h : Scanning p cache cursor) (c : List UInt8) :
    (cache.write c).2.bytes = p ++ c := by
  rw [ByteBuffer.bytes_write _ _ h.sound, h.bytes]

/-- Resuming the search at the cursor finds what a search of all the bytes from the start finds. -/
theorem Scanning.found_feedHeader (h : Scanning p cache cursor) (c : List UInt8) :
    (feedHeader cache cursor c).1 = findTerminator (p ++ c) 0 := by
  have resume : cursor.scanFrom = rescanOffset p.length := by
    rw [h.cursor]
    rfl
  have none : findTerminator p 0 = none := findTerminator_eq_none_iff_absent.2 fun i _ => h.absent i
  rw [Http.found_feedHeader, h.bytes_write, resume, findTerminator_rescanOffset c none]

/-- A read that completes no terminator leaves the scan waiting, fed one more read. -/
theorem Scanning.feedHeader_of_absent (h : Scanning p cache cursor) (c : List UInt8)
    (absent : findTerminator (p ++ c) 0 = none) :
    Scanning (p ++ c) (feedHeader cache cursor c).2.1 (feedHeader cache cursor c).2.2 := by
  have waiting : (feedHeader cache cursor c).1 = none := by rw [h.found_feedHeader, absent]
  have length : (cache.write c).2.length = (p ++ c).length := by
    rw [ByteBuffer.length_write, h.length, List.length_append]
  refine ⟨?_, ?_, ?_, ?_⟩
  · rw [cache_feedHeader]
    exact ByteBuffer.length_le_capacity_write _ _ h.sound
  · rw [cache_feedHeader, h.bytes_write]
  · exact fun i => findTerminator_eq_none_iff_absent.1 absent i (Nat.zero_le i)
  · rw [cursor_feedHeader, if_pos waiting, length, h.cursor]
    rfl

end Scanning

/-! ## A whole header block in reads -/

/-- Feeds header reads in turn until one completes a terminator, answering as the last call did,
with the cache and cursor it left. -/
def feedHeaderChunks (cache : ByteBuffer) (cursor : BodyCursor) :
    List (List UInt8) → Option Nat × ByteBuffer × BodyCursor
  | [] => (none, cache, cursor)
  | c :: cs =>
    match feedHeader cache cursor c with
    | (some t, cache, cursor) => (some t, cache, cursor)
    | (none, cache, cursor) => feedHeaderChunks cache cursor cs

/-- How a header scan over reads whose bytes are `bytes` ends: at the first terminator of `bytes`,
with a cache holding a prefix of them in which it is already the first; or still waiting, fed them
all, with its cursor at or before the start of any terminator that later reads complete. -/
def ScanEnds (bytes : List UInt8) : Option Nat × ByteBuffer × BodyCursor → Prop
  | (some t, cache, _) => FirstTerminator bytes t ∧ cache.bytes <+: bytes ∧ FirstTerminator cache.bytes t
  | (none, cache, cursor) =>
    Scanning bytes cache cursor ∧ ∀ more i, TerminatorAt (bytes ++ more) i → cursor.scanFrom ≤ i

theorem ScanEnds.found {bytes : List UInt8} {r : Option Nat × ByteBuffer × BodyCursor}
    (h : ScanEnds bytes r) : r.1 = findTerminator bytes 0 := by
  rcases r with ⟨_ | t, cache, cursor⟩
  · exact (findTerminator_eq_none_iff_absent.2 fun i _ => h.1.absent i).symm
  · exact (findTerminator_zero_eq_some_iff.2 h.1).symm

theorem Scanning.feedHeaderChunks {p : List UInt8} {cache : ByteBuffer} {cursor : BodyCursor}
    (h : Scanning p cache cursor) (cs : List (List UInt8)) :
    ScanEnds (p ++ cs.flatten) (feedHeaderChunks cache cursor cs) := by
  induction cs generalizing p cache cursor with
  | nil =>
    simp only [Http.feedHeaderChunks, List.flatten_nil, List.append_nil]
    exact ⟨h, fun more _ found => h.scanFrom_le more found⟩
  | cons c cs ih =>
    have found := h.found_feedHeader c
    have bytes : (feedHeader cache cursor c).2.1.bytes = p ++ c := by
      rw [cache_feedHeader, h.bytes_write]
    rw [List.flatten_cons, ← List.append_assoc]
    rcases step : feedHeader cache cursor c with ⟨_ | t, cache', cursor'⟩
    · -- no terminator yet: the scan waits on with one more read
      rw [step] at found
      have waiting := h.feedHeader_of_absent c found.symm
      rw [step] at waiting
      simpa only [Http.feedHeaderChunks, step] using ih waiting
    · -- this read completes the first terminator of all the bytes fed so far
      rw [step] at found bytes
      have first := findTerminator_zero_eq_some_iff.1 found.symm
      simp only [Http.feedHeaderChunks, step, ScanEnds, bytes]
      refine ⟨findTerminator_zero_eq_some_iff.1 ?_, List.prefix_append _ _, first⟩
      exact findTerminator_append_of_eq_some _ found.symm

/-- Reading a header block in any reads, from an empty cache and a fresh cursor: while no
terminator is found the cache holds every byte fed and the cursor waits three bytes before their
end, at or before the start of any terminator later reads complete; the terminator found is the
first of the cache and of all the bytes, the same as one read of them all finds. -/
theorem header_scan_finds_the_first_terminator (cs : List (List UInt8)) :
    ScanEnds cs.flatten (feedHeaderChunks ByteBuffer.empty {} cs) ∧
      (feedHeaderChunks ByteBuffer.empty {} cs).1 = (feedHeader ByteBuffer.empty {} cs.flatten).1 := by
  have start := scanning_start ByteBuffer.empty rfl
  have ends := start.feedHeaderChunks cs
  rw [List.nil_append] at ends
  refine ⟨ends, ?_⟩
  rw [ends.found, start.found_feedHeader, List.nil_append]

-- A terminator split after its first CR: the first read leaves the cursor three bytes before its
-- end, and the second read finds the terminator there.
example : (feedHeaderChunks ByteBuffer.empty {} [utf8 "HTTP/1.1 200 OK\r\nA: b\r"]).2.2 = { scanFrom := 19 } ∧
    (feedHeaderChunks ByteBuffer.empty {} [utf8 "HTTP/1.1 200 OK\r\nA: b\r", utf8 "\n\r\nab"]).1 = some 21 := by
  cbv

/-! ## The scan inside a message -/

section Message

variable {α : Type} (m : Message) (bytes : List UInt8) (cookieHeader : String)
  (read : StartLine → Except HttpError α)

/-- While `feedHeader` finds no terminator, a message fed header bytes answers nothing and keeps
the cache and cursor it leaves. -/
theorem receiveHeader_of_feedHeader_none {cache : ByteBuffer} {cursor : BodyCursor}
    (h : feedHeader m.cache m.cursor bytes = (none, cache, cursor)) :
    m.receiveHeader bytes cookieHeader read =
      (none, { m with cache, cursor, state := if cache.isEmpty then m.state else .pendingHeader }) := by
  have found := found_feedHeader m.cache m.cursor bytes
  have kept := cache_feedHeader m.cache m.cursor bytes
  have moved := cursor_feedHeader m.cache m.cursor bytes
  rw [h] at found kept moved
  simp only [if_true] at moved
  subst kept moved
  simp only [Message.receiveHeader, ← found]
  split <;> rfl

/-- Once `feedHeader` finds the terminator at `t`, a message fed the same bytes keeps the cache it
leaves and stops waiting: it fails on its header block, or reads it and starts its body right after
the terminator. -/
theorem receiveHeader_of_feedHeader_some {t : Nat} (h : (feedHeader m.cache m.cursor bytes).1 = some t) :
    (m.receiveHeader bytes cookieHeader read).2.cache = (feedHeader m.cache m.cursor bytes).2.1 ∧
      ((m.receiveHeader bytes cookieHeader read).1 = none ∧
          (m.receiveHeader bytes cookieHeader read).2.state = .errorSet ∨
        (m.receiveHeader bytes cookieHeader read).1.isSome ∧
          (m.receiveHeader bytes cookieHeader read).2.state = .pendingBody ∧
          (m.receiveHeader bytes cookieHeader read).2.cursor.index = t + 4) := by
  rw [found_feedHeader] at h
  rw [cache_feedHeader]
  simp only [Message.receiveHeader, h]
  split
  · simp
  · split <;> simp

end Message

end Switchboard.Http
