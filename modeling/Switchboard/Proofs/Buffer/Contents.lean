import Mathlib
import Switchboard.Buffer

/-!
# A byte buffer is a list of bytes

Through its operations a buffer is a list (`Tape.content`) together with the stale bytes its
allocation still holds past the end. `Shows` ties a buffer to its tape byte by byte, every
operation keeps it, so after any run the buffer holds the list the tape holds
(`byte_buffers_behave_as_lists`).
-/

namespace Switchboard.ByteBuffer

def cell (b : ByteBuffer) (i : Nat) : UInt8 := b.store[i]?.getD 0

theorem getD_pad (bytes : List UInt8) (k i : Nat) : (bytes ++ List.replicate k 0)[i]?.getD 0 = bytes[i]?.getD 0 := by
  rw [List.getElem?_append]
  split
  · rfl
  · next outside =>
    rw [List.getElem?_eq_none (Nat.le_of_not_lt outside), List.getElem?_replicate]
    split <;> rfl

theorem cell_reserve (b : ByteBuffer) (capacity : Nat) : (b.reserve capacity).cell = b.cell := by
  funext i
  unfold reserve cell
  split
  · exact getD_pad b.store _ i
  · rfl

theorem getElem?_overwrite {store src : List UInt8} {offset : Nat} (within : offset ≤ store.length)
    (i : Nat) : (overwrite store offset src)[i]? =
      if offset ≤ i ∧ i < offset + src.length then src[i - offset]? else store[i]? := by
  have front : (store.take offset).length = offset := by simp [within]
  rw [overwrite, List.append_assoc, List.getElem?_append, front]
  by_cases before : i < offset
  · rw [if_pos before, if_neg (by omega), List.getElem?_take, if_pos before]
  · rw [if_neg before, List.getElem?_append]
    by_cases covered : i < offset + src.length
    · rw [if_pos (by omega), if_pos ⟨Nat.le_of_not_lt before, covered⟩]
    · -- past the written bytes the allocation's own bytes follow, shifted back into place
      rw [if_neg (by omega), if_neg (by omega), List.getElem?_drop]
      congr 1
      omega

/-- A buffer's bytes as a list: its content, and the bytes its allocation still holds past the end. -/
structure Tape where
  content : List UInt8
  stale : List UInt8
  deriving Repr, DecidableEq

namespace Tape

def whole (t : Tape) : List UInt8 := t.content ++ t.stale

/-- Sets the length to `n`: the first `n` bytes of the content, then of the stale bytes, then
zeros; what lies past them stays stale. -/
def resize (t : Tape) (n : Nat) : Tape := ⟨(t.whole ++ List.replicate n 0).take n, t.whole.drop n⟩

/-- Deletes `length` bytes from `position`: the tail moves down over them, and the last `length`
bytes of the old content stay stale in front of the older stale bytes. -/
def remove (t : Tape) (position length : Nat) : Tape :=
  ⟨t.content.take position ++ t.content.drop (position + length),
   t.content.drop (t.content.length - length) ++ t.stale⟩

def apply (t : Tape) : Command → Tape
  | .write bytes => ⟨t.content ++ bytes, t.stale.drop bytes.length⟩
  | .push value => ⟨t.content ++ [value], t.stale.drop 1⟩
  | .resize n => t.resize n
  | .clear => ⟨[], t.whole⟩
  | .remove p l => if p + l ≤ t.content.length then t.remove p l else t
  | .xorWith value => ⟨t.content.map (· ^^^ value), t.stale⟩
  | .reserve _ | .shift _ | .unshift _ | .extractText _ _ | .get _ => t

/-- What the list says an operation answers. A shift may fail, when the position would leave the
word range; the list does not hold the position. -/
def Answers (t : Tape) : Command → Reply → Prop
  | .write bytes, r => r = .count bytes.length
  | .push _, r => r = .count 1
  | .extractText p l, r => r =
      if p + l ≤ t.content.length then .text (Utf8.lenient ((t.content.drop p).take l))
      else .outOfRange ⟨p, l, t.content.length⟩
  | .remove p l, r => r = if p + l ≤ t.content.length then .unit else .outOfRange ⟨p, l, t.content.length⟩
  | .get i, r => r = match t.content[i]? with
      | some v => .byte v
      | none => .fault
  | .shift _, r => r = .unit ∨ r = .fault
  | .reserve _, r | .resize _, r | .clear, r | .unshift _, r | .xorWith _, r => r = .unit

theorem whole_resize (t : Tape) (n : Nat) : (t.resize n).whole = t.whole ++ List.replicate (n - t.whole.length) 0 := by
  show (t.whole ++ List.replicate n 0).take n ++ t.whole.drop n = _
  rw [List.take_append]
  by_cases shorter : n ≤ t.whole.length
  · rw [Nat.sub_eq_zero_of_le shorter, List.take_zero, List.append_nil, List.take_append_drop,
      List.replicate_zero, List.append_nil]
  · rw [List.take_of_length_le (by omega), List.drop_of_length_le (by omega), List.append_nil,
      List.take_replicate, Nat.min_eq_left (by omega)]

theorem whole_remove {t : Tape} {p l : Nat} (inside : p + l ≤ t.content.length) :
    (t.remove p l).whole = ByteBuffer.overwrite t.whole p (t.content.drop (p + l)) := by
  have ends : p + (t.content.drop (p + l)).length = t.content.length - l := by simp; omega
  rw [ByteBuffer.overwrite, ends, remove, whole, whole, List.take_append_of_le_length (by omega),
    List.drop_append_of_le_length (by omega), List.append_assoc]

end Tape

/-- The buffer shows the tape: its length lies within its allocation and is the content's, and its
allocation, padded with zeros, holds the content followed by the stale bytes. -/
structure Shows (b : ByteBuffer) (t : Tape) : Prop where
  fits : b.length ≤ b.capacity
  length : t.content.length = b.length
  cells : ∀ i, b.cell i = t.whole[i]?.getD 0

namespace Shows

variable {b : ByteBuffer} {t : Tape}

theorem bytes (h : Shows b t) : b.bytes = t.content := by
  apply List.ext_getElem?
  intro i
  rw [ByteBuffer.bytes, List.getElem?_take]
  split
  · next inside =>
    have stored : i < b.store.length := Nat.lt_of_lt_of_le inside h.fits
    have cell := h.cells i
    rw [ByteBuffer.cell, Tape.whole, List.getElem?_append_left (by rw [h.length]; exact inside),
      List.getElem?_eq_getElem stored, List.getElem?_eq_getElem (by rw [h.length]; exact inside)] at cell
    rw [List.getElem?_eq_getElem stored, List.getElem?_eq_getElem (by rw [h.length]; exact inside)]
    exact congrArg some cell
  · next outside => rw [List.getElem?_eq_none (by rw [h.length]; omega)]

theorem remaining (h : Shows b t) : b.remaining = t.content.drop (min b.position t.content.length) := by
  rw [ByteBuffer.remaining, h.bytes]
  by_cases within : b.position ≤ t.content.length
  · rw [Nat.min_eq_left within]
  · rw [List.drop_of_length_le (by omega), List.drop_of_length_le (by omega)]

theorem of_cells (h : Shows b t) {b' : ByteBuffer} (cells : b'.cell = b.cell) (length : b'.length = b.length)
    (fits : b.capacity ≤ b'.capacity) : Shows b' t where
  fits := by have := h.fits; omega
  length := length ▸ h.length
  cells i := cells ▸ h.cells i

theorem overwrite (h : Shows b t) {store src : List UInt8} (cells : ∀ i, store[i]?.getD 0 = b.cell i)
    {offset n : Nat} (within : offset ≤ store.length) (inside : offset ≤ t.content.length)
    (ends : n = offset + src.length) (position : Nat) {t' : Tape} (length : t'.content.length = n)
    (written : t'.whole = ByteBuffer.overwrite t.whole offset src) :
    Shows ⟨ByteBuffer.overwrite store offset src, n, position⟩ t' where
  fits := by
    simp only [ByteBuffer.capacity, ByteBuffer.overwrite, List.length_append, List.length_take,
      List.length_drop]
    omega
  length := length
  cells i := by
    have covers : offset ≤ t.whole.length := by simp only [Tape.whole, List.length_append]; omega
    rw [ByteBuffer.cell, getElem?_overwrite within, written, getElem?_overwrite covers]
    split
    · rfl
    · rw [cells, h.cells]

theorem write (h : Shows b t) (src : List UInt8) :
    Shows (b.write src).2 ⟨t.content ++ src, t.stale.drop src.length⟩ := by
  unfold ByteBuffer.write
  split
  · next empty =>
    obtain rfl : src = [] := List.isEmpty_iff.1 empty
    simpa using h
  · have grown := (le_capacity_reserve b (b.length + src.length)).2
    refine h.overwrite (fun i => congrFun (cell_reserve b _) i) (Nat.le_trans h.fits grown) h.length.ge rfl _
      (by simp [h.length]) ?_
    rw [← h.length]
    simp [Tape.whole, ByteBuffer.overwrite]

theorem push (h : Shows b t) (value : UInt8) : Shows (b.push value) ⟨t.content ++ [value], t.stale.drop 1⟩ :=
  h.write [value]

theorem reserve (h : Shows b t) (capacity : Nat) : Shows (b.reserve capacity) t :=
  h.of_cells (cell_reserve b capacity) (by unfold ByteBuffer.reserve; split <;> rfl)
    (le_capacity_reserve b capacity).2

theorem clear (h : Shows b t) : Shows b.clear ⟨[], t.whole⟩ where
  fits := Nat.zero_le _
  length := rfl
  cells i := by rw [show b.clear.cell = b.cell from rfl, h.cells, Tape.whole, Tape.whole, List.nil_append]

theorem resize (h : Shows b t) (n : Nat) : Shows (b.resize n) (t.resize n) where
  fits := (le_capacity_reserve b n).1
  length := by
    simp only [Tape.resize, Tape.whole, List.length_take, List.length_append, List.length_replicate]
    show _ = n
    omega
  cells i := by
    rw [ByteBuffer.resize, show ({ b.reserve n with length := n, position := min (b.reserve n).position n } :
      ByteBuffer).cell = (b.reserve n).cell from rfl, cell_reserve, h.cells, Tape.whole_resize,
      getD_pad]

theorem remove (h : Shows b t) {p l : Nat} (inside : p + l ≤ t.content.length) {b' : ByteBuffer}
    (removed : b.remove p l = .ok b') : Shows b' (t.remove p l) := by
  simp only [ByteBuffer.remove, ByteBuffer.checkRange, ← h.length, if_pos inside, bind, Except.bind, pure,
    Except.pure, Except.ok.injEq] at removed
  subst removed
  have fits := h.fits
  have length := h.length
  simp only [ByteBuffer.capacity] at fits
  exact h.overwrite (fun _ => rfl) (by omega) (by omega) (by simp [h.bytes]; omega) _
    (by simp [Tape.remove]; omega) (by rw [h.bytes]; exact Tape.whole_remove inside)

theorem xorWith (h : Shows b t) (value : UInt8) : Shows (b.xorWith value) ⟨t.content.map (· ^^^ value), t.stale⟩ :=
  h.overwrite (fun _ => rfl) (Nat.zero_le _) (Nat.zero_le _) (by simp [h.bytes, h.length]) _ (by simp [h.length])
    (by simp [h.bytes, Tape.whole, ByteBuffer.overwrite])

theorem of_position (h : Shows b t) (position : Nat) : Shows { b with position } t :=
  h.of_cells rfl rfl (Nat.le_refl _)

end Shows

theorem write_fst (b : ByteBuffer) (src : List UInt8) : (b.write src).1 = src.length := by
  unfold write
  split
  · next empty => rw [List.isEmpty_iff.1 empty, List.length_nil]
  · rfl

theorem checkRange_eq (b : ByteBuffer) (position length : Nat) :
    b.checkRange position length = if position + length ≤ b.length then .ok () else .error ⟨position, length, b.length⟩ :=
  rfl

theorem extractText_eq (b : ByteBuffer) (position length : Nat) :
    b.extractText position length =
      if position + length ≤ b.length then .ok (Utf8.lenient ((b.bytes.drop position).take length))
      else .error ⟨position, length, b.length⟩ := by
  unfold extractText
  rw [checkRange_eq]
  split <;> rfl

theorem remove_of_le {b : ByteBuffer} {position length : Nat} (inside : position + length ≤ b.length) :
    ∃ b', b.remove position length = .ok b' := by
  simp [ByteBuffer.remove, checkRange_eq, inside, bind, Except.bind, pure, Except.pure]

theorem remove_of_lt {b : ByteBuffer} {position length : Nat} (outside : b.length < position + length) :
    b.remove position length = .error ⟨position, length, b.length⟩ := by
  simp [ByteBuffer.remove, checkRange_eq, Nat.not_le.2 outside, bind, Except.bind]

namespace Shows

variable {b : ByteBuffer} {t : Tape}

/-- Each operation keeps the buffer showing the tape, changed as the operation changes the list. -/
theorem perform (h : Shows b t) (c : Command) : Shows (b.perform c).2 (t.apply c) := by
  cases c with
  | write bytes => exact h.write bytes
  | push value => exact h.push value
  | reserve capacity => exact h.reserve capacity
  | resize n => exact h.resize n
  | clear => exact h.clear
  | shift amount =>
    simp only [ByteBuffer.perform, Tape.apply, shift?]
    cases addWord? b.position amount with
    | none => exact h
    | some position => exact h.of_position position
  | unshift amount => exact h.of_position _
  | extractText p l =>
    simp only [ByteBuffer.perform, Tape.apply]
    split <;> exact h
  | remove p l =>
    simp only [ByteBuffer.perform, Tape.apply]
    by_cases inside : p + l ≤ t.content.length
    · obtain ⟨b', removed⟩ := remove_of_le (h.length ▸ inside)
      rw [removed, if_pos inside]
      exact h.remove inside removed
    · rw [remove_of_lt (by rw [← h.length]; omega), if_neg inside]
      exact h
  | get i =>
    simp only [ByteBuffer.perform, Tape.apply]
    split <;> exact h
  | xorWith value => exact h.xorWith value

theorem answers (h : Shows b t) (c : Command) : t.Answers c (b.perform c).1 := by
  cases c with
  | write bytes => simp only [Tape.Answers, ByteBuffer.perform, write_fst]
  | push value => rfl
  | extractText p l =>
    simp only [Tape.Answers, ByteBuffer.perform, extractText_eq, h.bytes, h.length]
    by_cases inside : p + l ≤ b.length <;> simp [inside]
  | remove p l =>
    simp only [Tape.Answers, ByteBuffer.perform]
    by_cases inside : p + l ≤ t.content.length
    · obtain ⟨b', removed⟩ := remove_of_le (h.length ▸ inside)
      simp [removed, inside]
    · have outside : b.length < p + l := by rw [← h.length]; omega
      rw [remove_of_lt outside, if_neg inside, h.length]
  | get i =>
    simp only [Tape.Answers, ByteBuffer.perform, ByteBuffer.get?, h.bytes]
    cases t.content[i]? <;> rfl
  | shift amount =>
    simp only [Tape.Answers, ByteBuffer.perform]
    cases b.shift? amount <;> simp
  | reserve _ | resize _ | clear | unshift _ | xorWith _ => rfl

end Shows

def run (b : ByteBuffer) (cs : List Command) : ByteBuffer := cs.foldl (fun b c => (b.perform c).2) b

def Tape.run (t : Tape) (cs : List Command) : Tape := cs.foldl Tape.apply t

theorem Shows.run {b : ByteBuffer} {t : Tape} (h : Shows b t) (cs : List Command) : Shows (b.run cs) (t.run cs) := by
  induction cs generalizing b t with
  | nil => exact h
  | cons c cs ih => exact ih (h.perform c)

/-- Whether an answer reports a failure: a range outside the contents, or a position outside the
word range or the contents. -/
def Reply.failed : Reply → Bool
  | .outOfRange _ | .fault => true
  | .unit | .count _ | .text _ | .byte _ => false

theorem perform_of_failed (b : ByteBuffer) (c : Command) (failed : (b.perform c).1.failed) :
    (b.perform c).2 = b := by
  cases c with
  | shift amount =>
    simp only [ByteBuffer.perform] at failed ⊢
    split at failed <;> simp_all [Reply.failed]
  | extractText p l =>
    simp only [ByteBuffer.perform]
    split <;> rfl
  | remove p l =>
    simp only [ByteBuffer.perform] at failed ⊢
    split at failed <;> simp_all [Reply.failed]
  | get i =>
    simp only [ByteBuffer.perform]
    split <;> rfl
  | write _ | push _ | reserve _ | resize _ | clear | unshift _ | xorWith _ =>
    simp [ByteBuffer.perform, Reply.failed] at failed

/-- The ways a buffer is made: empty (new, or by default), with an allocation of zeros, or holding
a copy of some bytes. -/
inductive Start where
  | empty
  | withCapacity (capacity : Nat)
  | ofBytes (bytes : List UInt8)

def Start.buffer : Start → ByteBuffer
  | .empty => ByteBuffer.empty
  | .withCapacity capacity => ByteBuffer.withCapacity capacity
  | .ofBytes bytes => ByteBuffer.ofBytes bytes

/-- The list the buffer starts as: its bytes, and nothing stale, since every byte its allocation
holds past the end is a zero that was never written. -/
def Start.tape : Start → Tape
  | .ofBytes bytes => ⟨bytes, []⟩
  | .empty | .withCapacity _ => ⟨[], []⟩

theorem Start.shows (s : Start) : Shows s.buffer s.tape := by
  cases s with
  | empty => exact ⟨Nat.le_refl 0, rfl, fun i => by simp [Start.buffer, ByteBuffer.empty, cell, Start.tape, Tape.whole]⟩
  | withCapacity capacity =>
    refine ⟨Nat.zero_le _, rfl, fun i => ?_⟩
    simp only [Start.buffer, ByteBuffer.withCapacity, cell, Start.tape, Tape.whole, List.append_nil,
      List.getElem?_nil]
    exact getD_pad [] capacity i
  | ofBytes bytes =>
    refine ⟨Nat.le_refl _, rfl, fun i => ?_⟩
    simp [Start.buffer, ByteBuffer.ofBytes, cell, Start.tape, Tape.whole]

/-- However a buffer is made, after any sequence of operations it holds the list the operations
make: writing appends, removing a range inside the contents deletes it, clearing empties, resizing
keeps a prefix and exposes the bytes kept past the end and then zeros, XOR maps every byte, and
the other operations leave the list alone. Its remaining bytes are the list from the read
position on; the next operation answers what the list says (a range is out of range exactly when
it passes the end); and an operation that fails leaves the buffer as it was. -/
theorem byte_buffers_behave_as_lists (s : Start) (cs : List Command) (c : Command) :
    (s.buffer.run cs).bytes = (s.tape.run cs).content ∧
      (s.buffer.run cs).remaining =
        (s.tape.run cs).content.drop (min (s.buffer.run cs).position (s.tape.run cs).content.length) ∧
      (s.tape.run cs).Answers c ((s.buffer.run cs).perform c).1 ∧
      (((s.buffer.run cs).perform c).1.failed → ((s.buffer.run cs).perform c).2 = s.buffer.run cs) := by
  have shows := s.shows.run cs
  exact ⟨shows.bytes, shows.remaining, shows.answers c, perform_of_failed _ c⟩

/-- A cleared buffer grown again shows the bytes it held, then zeros past its allocation. -/
example : ((ByteBuffer.ofBytes [1, 2, 3]).clear.resize 5).bytes = [1, 2, 3, 0, 0] := by decide

end Switchboard.ByteBuffer
