import Switchboard.WebSocket.Opcode
import Switchboard.Word
/-!
# WebSocket frames

A frame is a FIN bit and opcode, a length (inline up to 125, else 16 or 64 bits), an optional
masking key, and the payload. A close frame with a status or a payload carries the status as two
bytes before the payload. A mask is applied byte by byte with the key repeated every four bytes.
-/
namespace Switchboard.WebSocket

/-- A four-byte masking key. -/
structure Mask where
  k0 : UInt8
  k1 : UInt8
  k2 : UInt8
  k3 : UInt8
  deriving Repr, DecidableEq

namespace Mask

def zero : Mask := ⟨0, 0, 0, 0⟩

def ofBytes (bs : List UInt8) : Mask := ⟨bs.getD 0 0, bs.getD 1 0, bs.getD 2 0, bs.getD 3 0⟩

def toBytes (m : Mask) : List UInt8 := [m.k0, m.k1, m.k2, m.k3]

def keyAt (m : Mask) (i : Nat) : UInt8 :=
  match i % 4 with
  | 0 => m.k0
  | 1 => m.k1
  | 2 => m.k2
  | _ => m.k3

def applyFrom (m : Mask) (i : Nat) : List UInt8 → List UInt8
  | [] => []
  | b :: rest => (b ^^^ m.keyAt i) :: m.applyFrom (i + 1) rest

def apply (m : Mask) (bs : List UInt8) : List UInt8 := m.applyFrom 0 bs

theorem applyFrom_applyFrom (m : Mask) (i : Nat) (bs : List UInt8) :
    m.applyFrom i (m.applyFrom i bs) = bs := by
  induction bs generalizing i with
  | nil => rfl
  | cons b bs ih => simp only [applyFrom, ih, UInt8.xor_assoc, UInt8.xor_self, UInt8.xor_zero]

theorem apply_apply (m : Mask) (bs : List UInt8) : m.apply (m.apply bs) = bs :=
  applyFrom_applyFrom m 0 bs

theorem keyAt_zero (i : Nat) : zero.keyAt i = 0 := by
  unfold keyAt
  split <;> rfl

theorem zero_applyFrom (i : Nat) (bs : List UInt8) : zero.applyFrom i bs = bs := by
  induction bs generalizing i with
  | nil => rfl
  | cons b bs ih => simp only [applyFrom, ih, keyAt_zero, UInt8.xor_zero]

theorem zero_apply (bs : List UInt8) : zero.apply bs = bs := zero_applyFrom 0 bs

theorem length_applyFrom (m : Mask) (i : Nat) (bs : List UInt8) : (m.applyFrom i bs).length = bs.length := by
  induction bs generalizing i with
  | nil => rfl
  | cons b bs ih => simp [applyFrom, ih]

theorem ofBytes_take (bs : List UInt8) {m : Nat} (h : 4 ≤ m) : ofBytes (bs.take m) = ofBytes bs := by
  have lt : 0 < m ∧ 1 < m ∧ 2 < m ∧ 3 < m := by omega
  simp only [ofBytes, List.getD_eq_getElem?_getD, List.getElem?_take, lt, if_true]

theorem ofBytes_toBytes_append (m : Mask) (rest : List UInt8) : ofBytes (m.toBytes ++ rest) = m := rfl

end Mask

/-- The bytes a frame carries after its header, before masking: for a close frame with a status
or a payload, the status as two bytes and then the payload. -/
def frameBody (opcode : Opcode) (payload : List UInt8) (status : Nat) : List UInt8 :=
  let withStatus := opcode == .close && (status != 0 || !payload.isEmpty)
  (if withStatus then bigEndian 2 status else []) ++ payload

def firstByte (opcode : Opcode) (fin : Bool) : UInt8 := ((if fin then 0x80 else 0) + opcode.code).toUInt8

/-- The second byte of a frame, with the mask bit, and the extended length after it: a body of up
to 125 bytes has its length inline, a longer one 126 and 16 bits, a still longer one 127 and
64 bits. -/
def lengthField (masked : Bool) (size : Nat) : UInt8 × List UInt8 :=
  let maskBit : Nat := if masked then 0x80 else 0
  if size ≤ 125 then ((size + maskBit).toUInt8, [])
  else if size ≤ 0xFFFF then ((126 + maskBit).toUInt8, bigEndian 2 size)
  else ((127 + maskBit).toUInt8, bigEndian 8 size)

def encodeFrame (opcode : Opcode) (fin : Bool) (mask : Option Mask) (payload : List UInt8)
    (status : Nat) : List UInt8 :=
  let body := frameBody opcode payload status
  let field := lengthField mask.isSome body.length
  match mask with
  | none => firstByte opcode fin :: field.1 :: field.2 ++ body
  | some m => firstByte opcode fin :: field.1 :: field.2 ++ m.toBytes ++ m.apply body

end Switchboard.WebSocket
