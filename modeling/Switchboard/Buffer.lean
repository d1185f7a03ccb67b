import Switchboard.Text.Utf8
import Switchboard.Word
/-!
# Byte buffers

A `ByteBuffer` is a growable run of bytes with a read position. Its allocation (`store`) only
grows: the capacity is the size of the allocation, and bytes past the logical length stay in it
until a later write covers them, so they reappear when the length grows again.
-/
namespace Switchboard

/-- A growable byte buffer with a read position. -/
structure ByteBuffer where
  store : List UInt8
  length : Nat
  position : Nat
  deriving Repr, DecidableEq

namespace ByteBuffer

def empty : ByteBuffer := ⟨[], 0, 0⟩

def withCapacity (capacity : Nat) : ByteBuffer := ⟨List.replicate capacity 0, 0, 0⟩

def ofBytes (bytes : List UInt8) : ByteBuffer := ⟨bytes, bytes.length, 0⟩

def capacity (b : ByteBuffer) : Nat := b.store.length

def bytes (b : ByteBuffer) : List UInt8 := b.store.take b.length

def isEmpty (b : ByteBuffer) : Bool := b.length == 0

def remaining (b : ByteBuffer) : List UInt8 := b.bytes.drop b.position

/-- Grows the allocation to at least `capacity`, and then to at least twice its old size; a
request that already fits changes nothing. -/
def reserve (b : ByteBuffer) (capacity : Nat) : ByteBuffer :=
  if b.capacity < capacity then
    let grown := max capacity (2 * b.capacity)
    { b with store := b.store ++ List.replicate (grown - b.capacity) 0 }
  else b

/-- Sets the logical length, growing the allocation as needed and pulling the read position back
to the new end. -/
def resize (b : ByteBuffer) (length : Nat) : ByteBuffer :=
  let r := b.reserve length
  { r with length := length, position := min r.position length }

def clear (b : ByteBuffer) : ByteBuffer := { b with length := 0, position := 0 }

def shift? (b : ByteBuffer) (amount : Nat) : Option ByteBuffer :=
  (addWord? b.position amount).map fun p => { b with position := p }

def unshift (b : ByteBuffer) (amount : Nat) : ByteBuffer := { b with position := b.position - amount }

def overwrite (store : List UInt8) (offset : Nat) (src : List UInt8) : List UInt8 :=
  store.take offset ++ src ++ store.drop (offset + src.length)

def write (b : ByteBuffer) (src : List UInt8) : Nat × ByteBuffer :=
  if src.isEmpty then (0, b)
  else
    let r := b.reserve (b.length + src.length)
    (src.length, { r with store := overwrite r.store b.length src, length := b.length + src.length })

theorem take_store_reserve (b : ByteBuffer) (capacity n : Nat) (h : n ≤ b.capacity) :
    (b.reserve capacity).store.take n = b.store.take n := by
  unfold reserve
  split
  · exact List.take_append_of_le_length h
  · rfl

theorem le_capacity_reserve (b : ByteBuffer) (capacity : Nat) :
    capacity ≤ (b.reserve capacity).capacity ∧ b.capacity ≤ (b.reserve capacity).capacity := by
  unfold reserve ByteBuffer.capacity
  split
  · simp only [List.length_append, List.length_replicate]
    constructor <;> omega
  · constructor <;> omega

theorem length_bytes (b : ByteBuffer) (h : b.length ≤ b.capacity) : b.bytes.length = b.length := by
  simp only [bytes, List.length_take, ByteBuffer.capacity] at h ⊢
  omega

theorem length_write (b : ByteBuffer) (src : List UInt8) :
    (b.write src).2.length = b.length + src.length := by
  unfold write
  split
  · next empty => simp_all
  · rfl

theorem length_le_capacity_write (b : ByteBuffer) (src : List UInt8) (h : b.length ≤ b.capacity) :
    (b.write src).2.length ≤ (b.write src).2.capacity := by
  unfold write
  split
  · exact h
  · have grown := (le_capacity_reserve b (b.length + src.length)).1
    simp only [ByteBuffer.capacity, overwrite, List.length_append, List.length_take,
      List.length_drop] at grown ⊢
    omega

theorem bytes_write (b : ByteBuffer) (src : List UInt8) (h : b.length ≤ b.capacity) :
    (b.write src).2.bytes = b.bytes ++ src := by
  unfold write
  split
  · next empty => simp_all
  · have grown := (le_capacity_reserve b (b.length + src.length)).1
    have kept := take_store_reserve b (b.length + src.length) b.length h
    simp only [ByteBuffer.capacity] at grown
    simp only [bytes, overwrite]
    rw [List.take_append_of_le_length (by simp; omega), kept]
    apply List.take_of_length_le
    simp only [List.length_append, List.length_take, ByteBuffer.capacity] at h ⊢
    omega

def push (b : ByteBuffer) (value : UInt8) : ByteBuffer := (b.write [value]).2

def get? (b : ByteBuffer) (index : Nat) : Option UInt8 := b.bytes[index]?

def xorWith (b : ByteBuffer) (value : UInt8) : ByteBuffer :=
  { b with store := overwrite b.store 0 (b.bytes.map (· ^^^ value)) }

/-- A range of the contents that does not lie within them. -/
structure RangeError where
  position : Nat
  length : Nat
  size : Nat
  deriving Repr, DecidableEq

def RangeError.message (e : RangeError) : String :=
  s!"Range {e.position}+{e.length} is out of buffer bounds ({e.size})"

def checkRange (b : ByteBuffer) (position length : Nat) : Except RangeError Unit :=
  if position + length ≤ b.length then .ok () else .error ⟨position, length, b.length⟩

def extractText (b : ByteBuffer) (position length : Nat) : Except RangeError String := do
  b.checkRange position length
  return Utf8.lenient ((b.bytes.drop position).take length)

/-- Deletes a range of the contents. A read position past the range moves back with the bytes
after it; one inside the range moves to its start. -/
def remove (b : ByteBuffer) (position length : Nat) : Except RangeError ByteBuffer := do
  b.checkRange position length
  let stop := position + length
  let tail := b.bytes.drop stop
  let newLength := b.length - length
  let pos :=
    if stop ≤ b.position then b.position - length
    else if position ≤ b.position then min position newLength
    else b.position
  return { store := overwrite b.store position tail, length := newLength, position := pos }

/-- One operation on a buffer. -/
inductive Command where
  | write (bytes : List UInt8)
  | push (value : UInt8)
  | reserve (capacity : Nat)
  | resize (length : Nat)
  | clear
  | shift (amount : Nat)
  | unshift (amount : Nat)
  | extractText (position length : Nat)
  | remove (position length : Nat)
  | get (index : Nat)
  | xorWith (value : UInt8)
  deriving Repr

/-- What an operation on a buffer answers. A `fault` is an access outside the contents or a
position outside the word range; the buffer is then left as it was. -/
inductive Reply where
  | unit
  | count (n : Nat)
  | text (s : String)
  | byte (b : UInt8)
  | outOfRange (e : RangeError)
  | fault
  deriving Repr

def perform (b : ByteBuffer) : Command → Reply × ByteBuffer
  | .write bytes => let r := b.write bytes; (.count r.1, r.2)
  | .push value => (.count 1, b.push value)
  | .reserve c => (.unit, b.reserve c)
  | .resize l => (.unit, b.resize l)
  | .clear => (.unit, b.clear)
  | .shift a => match b.shift? a with
    | some b' => (.unit, b')
    | none => (.fault, b)
  | .unshift a => (.unit, b.unshift a)
  | .extractText p l => match b.extractText p l with
    | .ok s => (.text s, b)
    | .error e => (.outOfRange e, b)
  | .remove p l => match b.remove p l with
    | .ok b' => (.unit, b')
    | .error e => (.outOfRange e, b)
  | .get i => match b.get? i with
    | some v => (.byte v, b)
    | none => (.fault, b)
  | .xorWith v => (.unit, b.xorWith v)

end ByteBuffer

end Switchboard
