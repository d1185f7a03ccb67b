import Switchboard.WebSocket.Frame
import Switchboard.Entropy
import Switchboard.Word
/-!
# The WebSocket frame engine

The engine receives bytes in any split and reports what they carry as events. A frame is gathered
until its header is known and then until its payload is complete. Before the payload arrives the
engine checks that the frame is addressable and that the message it belongs to stays within the
size limit; a failure discards the rest of the bytes given. Data frames are appended to the
message being assembled; a FIN frame delivers it when its opcode is text or binary. The opcode of
the last data message is remembered, so a later continuation frame carries on with it.
-/
namespace Switchboard.WebSocket

/-- What received bytes carried, in the order found. -/
inductive Event where
  | message (data : List UInt8)
  | close (data : List UInt8) (status : Nat)
  | ping (data : List UInt8)
  | pong (data : List UInt8)
  | error (text : String)
  deriving Repr, DecidableEq

/-- The state of one side of a WebSocket connection. -/
structure Engine where
  client : Bool
  handshaked : Bool := false
  key : String := ""
  maxMessageSize : Nat := wordMax
  opcode : Nat := 0
  frameReceived : Bool := false
  finalReceived : Bool := false
  frame : List UInt8 := []
  message : List UInt8 := []
  entropy : Entropy := {}

def hexLiteral (n : Nat) : String := "0x" ++ String.ofList (Nat.toDigits 16 n)

def fill (frame data : List UInt8) (target : Nat) : List UInt8 × List UInt8 :=
  let k := min (target - frame.length) data.length
  (frame ++ data.take k, data.drop k)

def extendedSize (second : UInt8) : Nat :=
  let inline := (second &&& 0x7F).toNat
  if inline = 126 then 2 else if inline = 127 then 8 else 0

/-- The size of a frame header: two bytes, the extended length field, and the masking key when the
second byte announces one. -/
def headerSize (second : UInt8) : Nat := 2 + extendedSize second + (if second &&& 0x80 != 0 then 4 else 0)

def payloadLength (second : UInt8) (header : List UInt8) : Nat :=
  if extendedSize second = 0 then (second &&& 0x7F).toNat else readBigEndian (header.take (extendedSize second))

/-- The masking key a complete header carries, from the bytes after its first two, or the key that
changes nothing. -/
def headerMask (second : UInt8) (header : List UInt8) : Mask :=
  if second &&& 0x80 != 0 then Mask.ofBytes (header.drop (extendedSize second)) else Mask.zero

namespace Engine

def fresh (client : Bool) (maxMessageSize : Nat := wordMax) : Engine := { client, maxMessageSize }

/-- The size a frame of payload `length` brings its message to: the message assembled so far with
the payload for a data frame, saturating at the word range, and the payload alone for a control
frame. -/
def messageSize (e : Engine) (first : UInt8) (length : Nat) : Nat :=
  if first &&& 0x08 == 0 then min (e.message.length + length) wordMax else length

def resetFrame (e : Engine) : Engine := { e with frameReceived := false, frame := [] }

def clear (e : Engine) : Engine :=
  { e.resetFrame with handshaked := false, key := "", opcode := 0, finalReceived := false,
                      message := [] }

def deliver (e : Engine) (first : UInt8) (payload : List UInt8) : List Event × Engine :=
  let op := (first &&& 0x0F).toNat
  match Opcode.ofCode? op with
  | some .ping => ([.ping payload], e)
  | some .pong => ([.pong payload], e)
  | some .close =>
    match payload with
    | a :: b :: rest => ([.close rest (a.toNat * 256 + b.toNat)], e)
    | _ => ([.close payload closeNormal], e)
  | some _ =>
    let e := if op != 0 then { e with opcode := op } else e
    let e := { e with message := e.message ++ payload }
    if first &&& 0x80 != 0 then
      let e := { e with finalReceived := true }
      (if e.opcode == 1 || e.opcode == 2 then [.message e.message]
       else [.error "continuation frame without a message"], e)
    else ([], e)
  | none => ([.error s!"unknown opcode {hexLiteral op}"], e)

def completeFrame (e : Engine) (first : UInt8) (headerSize : Nat) (mask : Mask) :
    List Event × Engine :=
  e.deliver first (mask.apply (e.frame.drop headerSize))

def receive (e : Engine) (data : List UInt8) : List Event × Engine :=
  if data.isEmpty then ([], e)
  else
    let e := if e.frameReceived then e.resetFrame else e
    let e := if e.finalReceived then { e with finalReceived := false, message := [] } else e
    let (frame, rest) := fill e.frame data 2
    let e := { e with frame }
    match frame with
    | first :: second :: _ =>
      let headerSize := headerSize second
      let (frame, rest) := fill frame rest headerSize
      let e := { e with frame }
      if frame.length < headerSize then ([], e)
      else
        let length := payloadLength second (frame.drop 2)
        let mask := headerMask second (frame.drop 2)
        if wordMax < length + headerSize then
          ([.error s!"frame length {length} is not addressable"], e.resetFrame)
        else
          let messageSize := e.messageSize first length
          if e.maxMessageSize < messageSize then
            ([.error s!"message of {messageSize} bytes exceeds the limit of {e.maxMessageSize}"],
              { e.resetFrame with opcode := 0, message := [] })
          else
            let total := length + headerSize
            let (frame, rest) := fill frame rest total
            let e := { e with frame }
            if frame.length < total then ([], e)
            else
              let (events, e) := { e with frameReceived := true }.completeFrame first headerSize mask
              if rest.length < data.length then
                let (more, e) := e.receive rest
                (events ++ more, e)
              else (events, e)
    | _ => ([], e)
termination_by data.length

def prepareSendFrame (e : Engine) (opcode : Opcode) (fin mask : Bool) (payload : List UInt8)
    (status : Nat) : List UInt8 × Engine :=
  if mask then
    let (key, g) := e.entropy.bytes 4
    (encodeFrame opcode fin (some (Mask.ofBytes key)) payload status, { e with entropy := g })
  else (encodeFrame opcode fin none payload status, e)

def prepareMessage (e : Engine) (opcode : Opcode) (payload : List UInt8) : List UInt8 × Engine :=
  e.prepareSendFrame opcode true e.client payload 0

end Engine

/-- The bytes a message event stands for: the final, unmasked binary frame holding it. Other
events stand for no bytes. -/
def Event.frameBytes : Event → List UInt8
  | .message d => encodeFrame .binary true none d 0
  | _ => []

/-- The events a fresh accepting engine reads from a stream, ordered by the bytes of the frames
they stand for, so that replies produced in any order compare equal. -/
def Engine.sortedEventsOf (bytes : List UInt8) : List Event :=
  ((Engine.fresh false).receive bytes).1.mergeSort fun a b => bytesLe a.frameBytes b.frameBytes

end Switchboard.WebSocket
