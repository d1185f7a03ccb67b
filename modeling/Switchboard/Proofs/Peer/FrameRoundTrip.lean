import Switchboard.Peer.Codec
import Switchboard.Proofs.Text.Utf8
/-!
# Operation frames decode to the message they carry

A frame is the body's length in four big-endian bytes, then the body. Decoding a frame gives back
the message encoded, as long as its numbers fit their 16-bit fields and its body fits the 32-bit
prefix: the prefix reads back as the body's length (`decodeFrame_prefixed`), and each field of the
body is read back from where the encoder wrote it (`decode_body`). The one field that may come back
changed is a response's debug message: the frame cuts it at 65535 bytes and writes an empty one as
no message at all (`carriedDebug`).
-/
namespace Switchboard

theorem readBigEndian_bigEndian_of_lt {n v : Nat} (fits : v < Nat.pow 256 n) :
    readBigEndian (bigEndian n v) = v := by
  rw [readBigEndian_bigEndian, Nat.mod_eq_of_lt fits]

theorem take_bigEndian_append (n v : Nat) (rest : List UInt8) :
    (bigEndian n v ++ rest).take n = bigEndian n v :=
  List.take_left' (length_bigEndian n v)

theorem drop_bigEndian_append (n v : Nat) (rest : List UInt8) :
    (bigEndian n v ++ rest).drop n = rest :=
  List.drop_left' (length_bigEndian n v)

end Switchboard

namespace Switchboard.Peer

theorem ReturnCode.ofCode?_code (rc : ReturnCode) : ReturnCode.ofCode? rc.code = some rc := by
  cases rc <;> rfl

theorem ReturnCode.code_lt (rc : ReturnCode) : rc.code < 10 := by
  cases rc <;> decide

def Message.InRange : Message → Prop
  | .request r => r.operationCode < 65536 ∧ r.requestId < 65536
  | .response r => r.operationCode < 65536 ∧ r.requestId < 65536
  | .event e => e.eventCode < 65536

instance : DecidablePred Message.InRange
  | .request _ => inferInstanceAs (Decidable (_ ∧ _))
  | .response _ => inferInstanceAs (Decidable (_ ∧ _))
  | .event _ => inferInstanceAs (Decidable (_ < _))

/-- The debug message a frame carries back: none for none or an empty text, the text itself when
its bytes fit the 16-bit length, and otherwise its first 65535 bytes read leniently. -/
def carriedDebug : Option String → Option String
  | none => none
  | some s =>
    if (utf8 s).length = 0 then none
    else if (utf8 s).length ≤ 65535 then some s
    else some (Utf8.lenient ((utf8 s).take 65535))

/-- The message a frame carries back: the message itself, with a response's debug message as the
frame carries it. -/
def Message.received : Message → Message
  | .request r => .request r
  | .response r => .response { r with debugMessage := carriedDebug r.debugMessage }
  | .event e => .event e

def DebugFits : Option String → Prop
  | none => True
  | some s => 0 < (utf8 s).length ∧ (utf8 s).length ≤ 65535

instance : DecidablePred DebugFits
  | none => inferInstanceAs (Decidable True)
  | some _ => inferInstanceAs (Decidable (_ ∧ _))

theorem carriedDebug_eq (m : Option String) :
    carriedDebug m = if 0 < ((utf8 (m.getD "")).take 65535).length
      then some (Utf8.lenient ((utf8 (m.getD "")).take 65535)) else none := by
  cases m with
  | none => simp [carriedDebug]
  | some s =>
    simp only [carriedDebug, Option.getD_some, List.length_take]
    by_cases empty : (utf8 s).length = 0
    · simp [empty]
    · by_cases fits : (utf8 s).length ≤ 65535
      · have whole : (utf8 s).take 65535 = utf8 s := List.take_of_length_le fits
        rw [if_neg empty, if_pos fits, if_pos (by omega), whole, Utf8.lenient_utf8]
      · rw [if_neg empty, if_neg fits, if_pos (by omega)]

theorem carriedDebug_of_fits {m : Option String} (fits : DebugFits m) : carriedDebug m = m := by
  cases m with
  | none => rfl
  | some s =>
    obtain ⟨nonempty, short⟩ := fits
    simp only [carriedDebug, if_neg (Nat.pos_iff_ne_zero.1 nonempty), if_pos short]

theorem decode_request_body (r : Request) (op : r.operationCode < 65536) (id : r.requestId < 65536) :
    decode (Message.request r).body = .ok (.request r) := by
  have long : ¬ 2 + (2 + (r.payload.length + 1)) < 5 := by omega
  have flag : ∀ b : Bool, ((if b = true then 1 else 0 : UInt8) &&& 1 != 0) = b := by decide
  simp only [Message.body, List.cons_append, List.append_assoc, decode]
  simp [flag, List.drop_eq_nil_of_le, need, length_bigEndian, long, List.drop_append,
    List.getElem?_append_right, readBigEndian_bigEndian_of_lt (show r.operationCode < Nat.pow 256 2 from op),
    readBigEndian_bigEndian_of_lt (show r.requestId < Nat.pow 256 2 from id)]

theorem decode_response_bytes (r : Response) (op : r.operationCode < 65536) (id : r.requestId < 65536)
    {debug : List UInt8} (short : debug.length < 65536) :
    decode (2 :: bigEndian 2 r.operationCode ++ bigEndian 2 r.requestId ++ [r.returnCode.code.toUInt8] ++
      bigEndian 2 debug.length ++ debug ++ r.payload) =
      .ok (.response { r with debugMessage := if 0 < debug.length then some (Utf8.lenient debug) else none }) := by
  have code : (r.returnCode.code.toUInt8).toNat = r.returnCode.code := by
    have := r.returnCode.code_lt
    simp
    omega
  have long : ¬ 2 + (2 + (2 + (debug.length + r.payload.length) + 1)) < 7 := by omega
  simp only [List.cons_append, List.append_assoc, decode]
  simp [need, length_bigEndian, long, List.drop_append, List.getElem?_append_right, List.drop_eq_nil_of_le,
    code, ReturnCode.ofCode?_code,
    readBigEndian_bigEndian_of_lt (show r.operationCode < Nat.pow 256 2 from op),
    readBigEndian_bigEndian_of_lt (show r.requestId < Nat.pow 256 2 from id),
    readBigEndian_bigEndian_of_lt (show debug.length < Nat.pow 256 2 from short)]
  rfl

theorem decode_response_body (r : Response) (op : r.operationCode < 65536) (id : r.requestId < 65536) :
    decode (Message.response r).body =
      .ok (.response { r with debugMessage := carriedDebug r.debugMessage }) := by
  have short : ((utf8 (r.debugMessage.getD "")).take 65535).length < 65536 := by
    have := List.length_take_le 65535 (utf8 (r.debugMessage.getD ""))
    omega
  rw [carriedDebug_eq]
  exact decode_response_bytes r op id short

theorem decode_event_body (e : Event) (code : e.eventCode < 65536) :
    decode (Message.event e).body = .ok (.event e) := by
  have long : ¬ 2 + e.payload.length < 2 := by omega
  simp only [Message.body, List.cons_append, decode]
  simp [need, length_bigEndian, long, readBigEndian_bigEndian_of_lt (show e.eventCode < Nat.pow 256 2 from code)]

/-- The body of a message whose numbers fit their fields decodes to the message it carries. -/
theorem decode_body {m : Message} (inRange : m.InRange) : decode m.body = .ok m.received := by
  cases m with
  | request r => exact decode_request_body r inRange.1 inRange.2
  | response r => exact decode_response_body r inRange.1 inRange.2
  | event e => exact decode_event_body e inRange

/-- A frame whose prefix holds its body's length decodes as its body. -/
theorem decodeFrame_prefixed (body : List UInt8) (short : body.length < Nat.pow 2 32) :
    decodeFrame (bigEndian 4 body.length ++ body) = decode body := by
  have fits : body.length < Nat.pow 256 4 := short
  have long : ¬ (bigEndian 4 body.length ++ body).length < 4 := by
    simp [length_bigEndian]
  simp only [decodeFrame, need, lengthSize, long, if_false, take_bigEndian_append, drop_bigEndian_append,
    readBigEndian_bigEndian_of_lt fits, bne_self_eq_false]
  rfl

theorem encode_eq_prefixed {m : Message} (short : m.body.length < Nat.pow 2 32) :
    m.encode = bigEndian 4 m.body.length ++ m.body := by
  rw [Message.encode, Nat.mod_eq_of_lt short]

/-- Decoding the frame of a message gives the message back. Its codes and ids are taken to fit
their 16-bit fields, and its body the 32-bit length prefix. The frame starts with the body's
length in four big-endian bytes. A response's debug message comes back as `carriedDebug` says:
unchanged when it is none or has 1 to 65535 bytes, none when it is empty, and cut to its first
65535 bytes, read leniently, when it is longer. -/
theorem decoding_a_frame_gives_its_message_back (m : Message) (inRange : m.InRange)
    (short : m.body.length < Nat.pow 2 32) :
    m.encode = bigEndian 4 m.body.length ++ m.body ∧ decodeFrame m.encode = .ok m.received ∧
      ((∀ r, m = .response r → DebugFits r.debugMessage) → m.received = m) := by
  refine ⟨encode_eq_prefixed short, ?_, fun fits => ?_⟩
  · rw [encode_eq_prefixed short, decodeFrame_prefixed _ short, decode_body inRange]
  · cases m with
    | request r => rfl
    | response r => simp only [Message.received, carriedDebug_of_fits (fits r rfl)]
    | event e => rfl

/-- A response with a debug message and a payload, its request id the largest there is, reads back
from its frame. -/
theorem busy_response_frame_reads_back :
    Message.InRange (.response ⟨12, 65535, .maxPendingRequest, some "busy", [0, 1]⟩) ∧
      (Message.response ⟨12, 65535, .maxPendingRequest, some "busy", [0, 1]⟩).body.length < Nat.pow 2 32 ∧
      decodeFrame (Message.response ⟨12, 65535, .maxPendingRequest, some "busy", [0, 1]⟩).encode =
        .ok (.response ⟨12, 65535, .maxPendingRequest, some "busy", [0, 1]⟩) := by
  have inRange : Message.InRange (.response ⟨12, 65535, .maxPendingRequest, some "busy", [0, 1]⟩) := by decide
  have short : (Message.response ⟨12, 65535, .maxPendingRequest, some "busy", [0, 1]⟩).body.length <
      Nat.pow 2 32 := by decide +kernel
  have fits : DebugFits (some "busy") := by decide +kernel
  obtain ⟨-, decoded, same⟩ := decoding_a_frame_gives_its_message_back _ inRange short
  refine ⟨inRange, short, ?_⟩
  rw [decoded, same (fun r h => by cases h; exact fits)]

end Switchboard.Peer
