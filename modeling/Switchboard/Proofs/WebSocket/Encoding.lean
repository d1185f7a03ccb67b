import Switchboard.Proofs.WebSocket.Receiving
/-!
# Reading back what the encoder writes

Each part of an encoded frame reads back the way the engine reads it (`Frame.decode_header`), so an
engine holding no bytes of a frame takes a whole encoded frame at once
(`Engine.receive_encode_append`) and acts on its body as its opcode says.
-/
namespace Switchboard.WebSocket

theorem inline_lengthField (masked : Bool) {size : Nat} (small : size ≤ 125) :
    (((size + if masked then 0x80 else 0).toUInt8 &&& 0x7F).toNat = size) ∧
      (((size + if masked then 0x80 else 0).toUInt8 &&& 0x80 != 0) = masked) := by
  revert size
  cases masked <;> decide

theorem extended_lengthField (masked : Bool) (inline : Nat) (long : inline = 126 ∨ inline = 127) :
    (((inline + if masked then 0x80 else 0).toUInt8 &&& 0x7F).toNat = inline) ∧
      (((inline + if masked then 0x80 else 0).toUInt8 &&& 0x80 != 0) = masked) := by
  rcases long with rfl | rfl <;> cases masked <;> decide

theorem payloadLength_extended {second : UInt8} {n size : Nat} (extended : extendedSize second = n)
    (fits : size < Nat.pow 256 n) (rest : List UInt8) (long : n ≠ 0) :
    payloadLength second (bigEndian n size ++ rest) = size := by
  rw [payloadLength, if_neg (by omega), extended, List.take_left' (length_bigEndian n size),
    readBigEndian_bigEndian, Nat.mod_eq_of_lt fits]

theorem decode_lengthField (masked : Bool) {size : Nat} (fits : size ≤ wordMax) (rest : List UInt8) :
    extendedSize (lengthField masked size).1 = (lengthField masked size).2.length ∧
      ((lengthField masked size).1 &&& 0x80 != 0) = masked ∧
      payloadLength (lengthField masked size).1 ((lengthField masked size).2 ++ rest) = size := by
  by_cases small : size ≤ 125
  · obtain ⟨inline, mark⟩ := inline_lengthField masked small
    have plain : extendedSize (size + if masked then 0x80 else 0).toUInt8 = 0 := by
      simp only [extendedSize, inline, if_neg (show size ≠ 126 by omega), if_neg (show size ≠ 127 by omega)]
    simp only [lengthField, small, if_true, List.length_nil, List.nil_append, mark, plain,
      payloadLength, inline]
    exact ⟨trivial, trivial, trivial⟩
  · by_cases medium : size ≤ 0xFFFF
    · obtain ⟨inline, mark⟩ := extended_lengthField masked 126 (Or.inl rfl)
      have two : extendedSize (126 + if masked then 0x80 else 0).toUInt8 = 2 := by
        simp only [extendedSize, inline]
        decide
      simp only [lengthField, small, medium, if_true, if_false, length_bigEndian, mark, two]
      exact ⟨trivial, trivial, payloadLength_extended two (by simp [Nat.pow]; omega) rest (by decide)⟩
    · obtain ⟨inline, mark⟩ := extended_lengthField masked 127 (Or.inr rfl)
      have eight : extendedSize (127 + if masked then 0x80 else 0).toUInt8 = 8 := by
        simp only [extendedSize, inline]
        decide
      have word : Nat.pow 256 8 = wordMax + 1 := by decide
      simp only [lengthField, small, medium, if_false, length_bigEndian, mark, eight]
      exact ⟨trivial, trivial, payloadLength_extended eight (by omega) rest (by decide)⟩

theorem ofCode?_code (opcode : Opcode) : Opcode.ofCode? opcode.code = some opcode := by
  cases opcode <;> rfl

/-- The first byte of a frame reads back as its opcode, its FIN bit, and whether it is a data
frame. -/
theorem decode_firstByte (opcode : Opcode) (fin : Bool) :
    (firstByte opcode fin &&& 0x0F).toNat = opcode.code ∧
      (firstByte opcode fin &&& 0x80 != 0) = fin ∧
      (firstByte opcode fin &&& 0x08 == 0) = !opcode.isControl := by
  cases opcode <;> cases fin <;> decide

/-- A frame as the encoder is given it: the opcode, the FIN bit, the masking key if any, the payload
and the close status, a 16-bit number. -/
structure Frame where
  opcode : Opcode
  fin : Bool
  mask : Option Mask
  payload : List UInt8
  status : UInt16
  deriving Repr, DecidableEq

namespace Frame

def encode (f : Frame) : List UInt8 := encodeFrame f.opcode f.fin f.mask f.payload f.status.toNat

def body (f : Frame) : List UInt8 := frameBody f.opcode f.payload f.status.toNat

def key (f : Frame) : Mask := f.mask.getD Mask.zero

def first (f : Frame) : UInt8 := firstByte f.opcode f.fin

def second (f : Frame) : UInt8 := (lengthField f.mask.isSome f.body.length).1

def header (f : Frame) : List UInt8 :=
  (lengthField f.mask.isSome f.body.length).2 ++ (f.mask.map Mask.toBytes).getD []

theorem encode_eq (f : Frame) : f.encode = f.first :: f.second :: (f.header ++ f.key.apply f.body) := by
  cases mask : f.mask with
  | none => simp [encode, encodeFrame, first, second, header, key, body, mask, Mask.zero_apply]
  | some m => simp [encode, encodeFrame, first, second, header, key, body, mask, Mask.toBytes]

theorem length_keyBytes (f : Frame) :
    ((f.mask.map Mask.toBytes).getD []).length = if f.mask.isSome then 4 else 0 := by
  cases f.mask <;> rfl

/-- The header the encoder writes reads back as the frame's body size and key, and its size as the
bytes it takes. -/
theorem decode_header (f : Frame) (fits : f.body.length ≤ wordMax) (wire : List UInt8) :
    payloadLength f.second (f.header ++ wire) = f.body.length ∧
      headerMask f.second (f.header ++ wire) = f.key ∧ headerSize f.second = f.header.length + 2 := by
  obtain ⟨extended, mark, length⟩ :=
    decode_lengthField f.mask.isSome fits ((f.mask.map Mask.toBytes).getD [] ++ wire)
  refine ⟨by rw [header, List.append_assoc]; exact length, ?_, ?_⟩
  · cases mask : f.mask with
    | none =>
      simp only [mask, Option.isSome_none] at mark
      simp only [headerMask, second, mask, Option.isSome_none, mark, key, Option.getD_none]
      rfl
    | some m =>
      simp only [mask, Option.isSome_some] at mark extended
      simp only [headerMask, second, mark, mask, Option.isSome_some, if_true, extended, header,
        Option.map_some, Option.getD_some, List.append_assoc, List.drop_left, key,
        Mask.ofBytes_toBytes_append]
  · simp only [headerSize, second, extended, mark, header, List.length_append, length_keyBytes]
    split <;> omega

theorem code_first (f : Frame) : (f.first &&& 0x0F).toNat = f.opcode.code :=
  (decode_firstByte f.opcode f.fin).1

theorem ofCode?_first (f : Frame) : Opcode.ofCode? (f.first &&& 0x0F).toNat = some f.opcode := by
  rw [code_first, ofCode?_code]

theorem fin_first (f : Frame) : (f.first &&& 0x80 != 0) = f.fin :=
  (decode_firstByte f.opcode f.fin).2.1

theorem data_first (f : Frame) : (f.first &&& 0x08 == 0) = !f.opcode.isControl :=
  (decode_firstByte f.opcode f.fin).2.2

theorem body_of_ne_close {f : Frame} (h : f.opcode ≠ .close) : f.body = f.payload := by
  simp [body, frameBody, h]

/-- The event a close frame stands for: its payload and status, or no payload and the normal
status when it carries neither. -/
def closeEvent (f : Frame) : Event :=
  if f.status = 0 ∧ f.payload = [] then .close [] closeNormal else .close f.payload f.status.toNat

/-- A data frame after the fragments `acc` of its message: the whole message when the frame is the
last, and the longer fragments otherwise. -/
def fragment (f : Frame) (acc : List UInt8) : List Event × Option (List UInt8) :=
  if f.fin then ([.message (acc ++ f.payload)], none) else ([], some (acc ++ f.payload))

end Frame

namespace Engine

/-- A ready engine that holds no bytes of a frame deals with a whole encoded frame at once, when
the frame passes the checks, and reads on after it. -/
theorem receive_encode_append {e : Engine} (ready : e.Ready) (empty : e.settle.frame = []) {f : Frame}
    (addressable : f.encode.length ≤ wordMax)
    (limit : e.settle.messageSize f.first f.body.length ≤ e.settle.maxMessageSize) (rest : List UInt8) :
    e.receive (f.encode ++ rest) =
      let r := ({ e.settle with frame := f.encode, frameReceived := true } : Engine).deliver f.first f.body
      let more := r.2.receive rest
      (r.1 ++ more.1, more.2) := by
  have nonempty : f.encode ++ rest ≠ [] := by simp [f.encode_eq]
  have wire : (f.key.apply f.body).length = f.body.length := Mask.length_applyFrom _ _ _
  have length : f.encode.length = f.body.length + f.header.length + 2 := by
    simp only [f.encode_eq, List.length_cons, List.length_append, wire]
    omega
  obtain ⟨size, key, header⟩ := f.decode_header (by omega) (f.key.apply f.body)
  have total : payloadLength f.second (f.header ++ f.key.apply f.body) + headerSize f.second =
      (f.first :: f.second :: (f.header ++ f.key.apply f.body)).length := by
    rw [size, header, ← f.encode_eq, length]
    omega
  have payload : (f.first :: f.second :: (f.header ++ f.key.apply f.body)).drop (headerSize f.second) =
      f.key.apply f.body := by
    rw [header, List.drop_succ_cons, List.drop_succ_cons, List.drop_left]
  rw [receive_eq_settle ready nonempty, empty, List.nil_append, f.encode_eq,
    gather_whole _ (by omega) (by rw [size]; omega) (Nat.le_of_eq total)]
  simp only [total, List.take_length, List.drop_length, List.nil_append, completeFrame, payload, key,
    Mask.apply_apply]

theorem deliver_ping (e : Engine) {f : Frame} (ping : f.opcode = .ping) :
    e.deliver f.first f.body = ([.ping f.payload], e) := by
  rw [Frame.body_of_ne_close (by simp [ping])]
  unfold deliver
  simp only [f.ofCode?_first, ping]

theorem deliver_pong (e : Engine) {f : Frame} (pong : f.opcode = .pong) :
    e.deliver f.first f.body = ([.pong f.payload], e) := by
  rw [Frame.body_of_ne_close (by simp [pong])]
  unfold deliver
  simp only [f.ofCode?_first, pong]

theorem deliver_close (e : Engine) {f : Frame} (close : f.opcode = .close) :
    e.deliver f.first f.body = ([f.closeEvent], e) := by
  unfold deliver
  simp only [f.ofCode?_first, close]
  by_cases bare : f.status = 0 ∧ f.payload = []
  · have empty : f.body = [] := by
      simp [Frame.body, frameBody, close, bare.1, bare.2]
    simp only [empty, Frame.closeEvent, bare, and_self, if_true]
  · have status : bigEndian 2 f.status.toNat =
        [(f.status.toNat / 256 % 256).toUInt8, (f.status.toNat % 256).toUInt8] := by
      rw [bigEndian_succ, bigEndian_succ]
      simp [bigEndian, Nat.pow]
    have withStatus : f.body = bigEndian 2 f.status.toNat ++ f.payload := by
      have flag : (f.status.toNat != 0 || !f.payload.isEmpty) = true := by
        cases payload : f.payload with
        | nil =>
          have nonzero : f.status ≠ 0 := fun zero => bare ⟨zero, payload⟩
          simpa [← UInt16.toNat_inj] using nonzero
        | cons b bs => simp
      simp [Frame.body, frameBody, close, flag]
    have value : (f.status.toNat / 256 % 256).toUInt8.toNat * 256 + (f.status.toNat % 256).toUInt8.toNat =
        f.status.toNat := by
      have := f.status.toNat_lt
      simp
      omega
    simp only [withStatus, status, List.cons_append, List.nil_append, Frame.closeEvent, bare, if_false,
      value]

theorem deliver_start (e : Engine) {f : Frame} (start : f.opcode = .text ∨ f.opcode = .binary) :
    e.deliver f.first f.body =
      let next : Engine := { e with opcode := f.opcode.code, message := e.message ++ f.payload }
      ((f.fragment e.message).1, { next with finalReceived := f.fin || e.finalReceived }) := by
  have payload : f.body = f.payload := Frame.body_of_ne_close (by rcases start with h | h <;> simp [h])
  unfold deliver
  simp only [f.code_first, ofCode?_code, f.fin_first, payload, Frame.fragment]
  rcases start with start | start <;>
  · cases f.fin <;> simp [start, Opcode.code]

theorem deliver_continue (e : Engine) {f : Frame} (continuation : f.opcode = .continuation)
    (started : e.opcode = 1 ∨ e.opcode = 2) :
    e.deliver f.first f.body =
      let next : Engine := { e with message := e.message ++ f.payload }
      ((f.fragment e.message).1, { next with finalReceived := f.fin || e.finalReceived }) := by
  have payload : f.body = f.payload := Frame.body_of_ne_close (by simp [continuation])
  unfold deliver
  simp only [f.code_first, ofCode?_code, f.fin_first, payload, Frame.fragment]
  cases f.fin <;> simp [continuation, Opcode.code, started]

end Engine

end Switchboard.WebSocket
