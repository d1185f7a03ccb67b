import Switchboard.Proofs.Buffer.Contents

/-!
# What every state of a byte buffer keeps

In every state a run reaches, the length lies within the allocation, the allocation never shrinks,
every operation but a shift keeps the read position within the contents, and the only faults are a
read at or past the end and a shift out of the word range
(`buffer_invariants_hold_in_every_state`).
-/

namespace Switchboard.ByteBuffer

/-! ## Reserving -/

theorem capacity_reserve (b : ByteBuffer) (r : Nat) :
    (b.reserve r).capacity = if b.capacity < r then max r (2 * b.capacity) else b.capacity := by
  unfold reserve
  split
  · simp only [ByteBuffer.capacity, List.length_append, List.length_replicate] at *
    omega
  · rfl

theorem reserve_of_le {b : ByteBuffer} {r : Nat} (fits : r ≤ b.capacity) : b.reserve r = b := by
  simp [reserve, Nat.not_lt.2 fits]

@[simp] theorem length_reserve (b : ByteBuffer) (r : Nat) : (b.reserve r).length = b.length := by
  unfold reserve; split <;> rfl

@[simp] theorem position_reserve (b : ByteBuffer) (r : Nat) : (b.reserve r).position = b.position := by
  unfold reserve; split <;> rfl

theorem capacity_le_reserve (b : ByteBuffer) (r : Nat) : b.capacity ≤ (b.reserve r).capacity :=
  (le_capacity_reserve b r).2

theorem bytes_reserve {b : ByteBuffer} (fits : b.length ≤ b.capacity) (r : Nat) :
    (b.reserve r).bytes = b.bytes := by
  simp only [bytes, length_reserve]
  exact take_store_reserve b r b.length fits

/-! ## The allocation under each operation -/

theorem length_overwrite {store src : List UInt8} {offset : Nat} (fits : offset + src.length ≤ store.length) :
    (overwrite store offset src).length = store.length := by
  simp only [overwrite, List.length_append, List.length_take, List.length_drop]
  omega

theorem capacity_write (b : ByteBuffer) (src : List UInt8) :
    (b.write src).2.capacity = if src.isEmpty then b.capacity else (b.reserve (b.length + src.length)).capacity := by
  unfold write
  split
  · rfl
  · exact length_overwrite (le_capacity_reserve b (b.length + src.length)).1

theorem remove_eq (b : ByteBuffer) (p l : Nat) :
    b.remove p l =
      if p + l ≤ b.length then
        .ok { store := overwrite b.store p (b.bytes.drop (p + l)), length := b.length - l,
              position := if p + l ≤ b.position then b.position - l
                else if p ≤ b.position then min p (b.length - l) else b.position }
      else .error ⟨p, l, b.length⟩ := by
  unfold remove
  rw [checkRange_eq]
  split <;> rfl

theorem capacity_remove {b b' : ByteBuffer} {p l : Nat} (fits : b.length ≤ b.capacity)
    (removed : b.remove p l = .ok b') : b'.capacity = b.capacity := by
  rw [remove_eq] at removed
  split at removed
  · cases removed
    -- the tail moves down over the range, so it still ends inside the allocation
    have short : p + (b.bytes.drop (p + l)).length ≤ b.store.length := by
      rw [List.length_drop, length_bytes b fits]
      simp only [ByteBuffer.capacity] at fits
      omega
    exact length_overwrite short
  · cases removed

theorem capacity_le_perform {b : ByteBuffer} (fits : b.length ≤ b.capacity) (c : Command) :
    b.capacity ≤ (b.perform c).2.capacity := by
  cases c with
  | write bytes =>
    show b.capacity ≤ (b.write bytes).2.capacity
    rw [capacity_write]
    split
    · exact Nat.le_refl _
    · exact capacity_le_reserve b _
  | push value =>
    show b.capacity ≤ (b.write [value]).2.capacity
    rw [capacity_write]
    exact capacity_le_reserve b _
  | reserve r => exact capacity_le_reserve b r
  | resize n => exact capacity_le_reserve b n
  | remove p l =>
    simp only [ByteBuffer.perform]
    split
    · next removed => exact Nat.le_of_eq (capacity_remove fits removed).symm
    · exact Nat.le_refl _
  | xorWith value =>
    show b.capacity ≤ (overwrite b.store 0 (b.bytes.map (· ^^^ value))).length
    have short : 0 + (b.bytes.map (· ^^^ value)).length ≤ b.store.length := by
      rw [List.length_map, length_bytes b fits, Nat.zero_add]
      exact fits
    rw [length_overwrite short]
    exact Nat.le_refl _
  | shift a =>
    simp only [ByteBuffer.perform, shift?]
    cases addWord? b.position a <;> exact Nat.le_refl _
  | clear | unshift _ => exact Nat.le_refl _
  | extractText _ _ | get _ =>
    simp only [ByteBuffer.perform]
    split <;> exact Nat.le_refl _

/-! ## The read position -/

/-- A removal moves the read position as the bytes under it move: back by the length past the
range, to the range's start inside it, and not at all before it. -/
theorem position_of_remove {b b' : ByteBuffer} {p l : Nat} (removed : b.remove p l = .ok b') :
    b'.position =
      if p + l ≤ b.position then b.position - l else if p ≤ b.position then p else b.position := by
  rw [remove_eq] at removed
  split at removed
  · next inside =>
    cases removed
    -- the contents keep at least `p` bytes, so the start of the range is still inside them
    have start : min p (b.length - l) = p := Nat.min_eq_left (by omega)
    simp only [start]
  · cases removed

theorem length_of_remove {b b' : ByteBuffer} {p l : Nat} (removed : b.remove p l = .ok b') :
    b'.length = b.length - l ∧ p + l ≤ b.length := by
  rw [remove_eq] at removed
  split at removed
  · next inside =>
    cases removed
    exact ⟨rfl, inside⟩
  · cases removed

theorem position_le_write {b : ByteBuffer} (inside : b.position ≤ b.length) (src : List UInt8) :
    (b.write src).2.position ≤ (b.write src).2.length := by
  rw [length_write]
  unfold write
  split
  · show b.position ≤ _
    omega
  · show (b.reserve _).position ≤ _
    rw [position_reserve]
    omega

/-- Every operation but a shift keeps the read position within the contents. -/
theorem position_le_perform {b : ByteBuffer} (inside : b.position ≤ b.length) (c : Command)
    (notShift : ∀ a, c ≠ .shift a) : (b.perform c).2.position ≤ (b.perform c).2.length := by
  cases c with
  | write bytes => exact position_le_write inside bytes
  | push value => exact position_le_write inside [value]
  | reserve r =>
    show (b.reserve r).position ≤ (b.reserve r).length
    rw [position_reserve, length_reserve]
    exact inside
  | resize n =>
    show min (b.reserve n).position n ≤ n
    exact Nat.min_le_right _ _
  | remove p l =>
    simp only [ByteBuffer.perform]
    split
    · next removed =>
      obtain ⟨shorter, fits⟩ := length_of_remove removed
      rw [position_of_remove removed, shorter]
      split
      · omega
      · split <;> omega
    · exact inside
  | shift a => exact absurd rfl (notShift a)
  | clear => exact Nat.le_refl 0
  | unshift a =>
    show b.position - a ≤ b.length
    omega
  | extractText _ _ | get _ =>
    simp only [ByteBuffer.perform]
    split <;> exact inside
  | xorWith _ => exact inside

/-! ## Faults -/

theorem get?_eq_none_iff {b : ByteBuffer} (fits : b.length ≤ b.capacity) (i : Nat) :
    b.get? i = none ↔ b.length ≤ i := by
  rw [get?, List.getElem?_eq_none_iff, length_bytes b fits]

theorem shift?_eq_none_iff (b : ByteBuffer) (a : Nat) : b.shift? a = none ↔ wordMax < b.position + a := by
  simp only [shift?, addWord?, Option.map_eq_none_iff]
  split <;> simp_all

/-- An operation faults only when it reads a byte at or past the end or shifts the position out of
the word range. -/
theorem perform_fault_iff {b : ByteBuffer} (fits : b.length ≤ b.capacity) (c : Command) :
    (b.perform c).1 = .fault ↔
      (∃ i, c = .get i ∧ b.length ≤ i) ∨ (∃ a, c = .shift a ∧ wordMax < b.position + a) := by
  cases c with
  | get i =>
    have missing := get?_eq_none_iff fits i
    simp only [ByteBuffer.perform]
    split <;> simp_all
  | shift a =>
    have leaves := shift?_eq_none_iff b a
    simp only [ByteBuffer.perform]
    split <;> simp_all
  | extractText p l =>
    simp only [ByteBuffer.perform]
    split <;> simp
  | remove p l =>
    simp only [ByteBuffer.perform]
    split <;> simp
  | write _ | push _ | reserve _ | resize _ | clear | unshift _ | xorWith _ =>
    simp [ByteBuffer.perform]

/-! ## Along a run -/

theorem capacity_le_run {b : ByteBuffer} {t : Tape} (h : Shows b t) (cs : List Command) :
    b.capacity ≤ (b.run cs).capacity := by
  induction cs generalizing b t with
  | nil => exact Nat.le_refl _
  | cons c cs ih => exact Nat.le_trans (capacity_le_perform h.fits c) (ih (h.perform c))

theorem position_le_run {b : ByteBuffer} (inside : b.position ≤ b.length) (cs : List Command)
    (noShift : ∀ c ∈ cs, ∀ a, c ≠ .shift a) : (b.run cs).position ≤ (b.run cs).length := by
  induction cs generalizing b with
  | nil => exact inside
  | cons c cs ih =>
    exact ih (position_le_perform inside c (noShift c List.mem_cons_self))
      (fun c' mem => noShift c' (List.mem_cons_of_mem c mem))

theorem Start.position_buffer (s : Start) : s.buffer.position = 0 := by
  cases s <;> rfl

/-- However a buffer is made and whatever operations it has been through: its length lies within
its allocation, which has only grown; the next operation does not shrink it; a reservation
beyond the allocation grows it to the request or to twice its size, whichever is more, keeping
the contents, length and position, and one within it changes nothing; every operation but a shift
keeps the read position within the contents, and so does every run without shifts; a removal moves
the position back by the length past the range, to its start inside it, and leaves it before it;
and the only operations that fault are reading a byte at or past the end and shifting the position
past the largest word. -/
theorem buffer_invariants_hold_in_every_state (s : Start) (cs : List Command) (c : Command) :
    let b := s.buffer.run cs
    (b.length ≤ b.capacity ∧ s.buffer.capacity ≤ b.capacity ∧ b.capacity ≤ (b.perform c).2.capacity) ∧
      (∀ r, (b.reserve r).bytes = b.bytes ∧ (b.reserve r).length = b.length ∧
        (b.reserve r).position = b.position ∧
        (b.reserve r).capacity = (if b.capacity < r then max r (2 * b.capacity) else b.capacity) ∧
        (r ≤ b.capacity → b.reserve r = b)) ∧
      ((∀ a, c ≠ .shift a) → b.position ≤ b.length → (b.perform c).2.position ≤ (b.perform c).2.length) ∧
      ((∀ c' ∈ cs, ∀ a, c' ≠ .shift a) → b.position ≤ b.length) ∧
      (∀ p l b', b.remove p l = .ok b' → b'.position =
        if p + l ≤ b.position then b.position - l else if p ≤ b.position then p else b.position) ∧
      ((b.perform c).1 = .fault ↔
        (∃ i, c = .get i ∧ b.length ≤ i) ∨ (∃ a, c = .shift a ∧ wordMax < b.position + a)) := by
  intro b
  have shows := s.shows.run cs
  refine ⟨⟨shows.fits, capacity_le_run s.shows cs, capacity_le_perform shows.fits c⟩,
    fun r => ⟨bytes_reserve shows.fits r, length_reserve b r, position_reserve b r, capacity_reserve b r,
      reserve_of_le⟩,
    fun notShift inside => position_le_perform inside c notShift,
    fun noShift => position_le_run (by rw [s.position_buffer]; exact Nat.zero_le _) cs noShift,
    fun p l b' removed => position_of_remove removed, perform_fault_iff shows.fits c⟩

/-- A cursor inside a removed range lands on its start, and one past it moves back with the tail. -/
example : ((((ByteBuffer.ofBytes [0, 1, 2, 3, 4, 5, 6, 7]).perform (.shift 3)).2.perform (.remove 2 4)).2.position,
    (((ByteBuffer.ofBytes [0, 1, 2, 3, 4, 5, 6, 7]).perform (.shift 6)).2.perform (.remove 1 2)).2.position) =
    (2, 4) := by decide

end Switchboard.ByteBuffer
