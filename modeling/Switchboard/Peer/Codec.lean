import Switchboard.Peer.Message
import Switchboard.Word
import Switchboard.Text.Ascii
import Switchboard.Text.Utf8
/-!
# The operation codec

A frame is a 32-bit big-endian body length followed by the body. The body's first byte is its
kind: 1, a request (code, id, flags, payload); 2, a response (code, id, return code, a 16-bit
length and that many bytes of debug message, payload); 3, an event (code, payload). Numbers are
big-endian; a debug message longer than 65535 bytes is cut there, and an empty one reads back as
none.
-/
namespace Switchboard.Peer

def lengthSize : Nat := 4

def Message.body : Message → List UInt8
  | .request r =>
    1 :: bigEndian 2 r.operationCode ++ bigEndian 2 r.requestId ++
      [if r.encrypted then 1 else 0] ++ r.payload
  | .response r =>
    let debug := (utf8 (r.debugMessage.getD "")).take 65535
    2 :: bigEndian 2 r.operationCode ++ bigEndian 2 r.requestId ++
      [r.returnCode.code.toUInt8] ++ bigEndian 2 debug.length ++ debug ++ r.payload
  | .event e => 3 :: bigEndian 2 e.eventCode ++ e.payload

def Message.encode (m : Message) : List UInt8 :=
  let body := m.body
  bigEndian 4 (body.length % Nat.pow 2 32) ++ body

def need (bs : List UInt8) (size : Nat) (what : String) : Except PeerError Unit :=
  if bs.length < size then .error (.codec s!"truncated {what}") else .ok ()

def decode (body : List UInt8) : Except PeerError Message :=
  match body with
  | [] => .error (.codec "empty message")
  | kind :: rest =>
    if kind == 1 then do
      need rest 5 "request"
      return .request { operationCode := readBigEndian (rest.take 2),
                        requestId := readBigEndian ((rest.drop 2).take 2),
                        encrypted := (rest.getD 4 0) &&& 1 != 0, payload := rest.drop 5 }
    else if kind == 2 then do
      need rest 7 "response"
      let c := (rest.getD 4 0).toNat
      let some rc := ReturnCode.ofCode? c | .error (.codec s!"unknown return code {c}")
      let debugLen := readBigEndian ((rest.drop 5).take 2)
      let tail := rest.drop 7
      need tail debugLen "debug message"
      return .response { operationCode := readBigEndian (rest.take 2),
                         requestId := readBigEndian ((rest.drop 2).take 2), returnCode := rc,
                         debugMessage :=
                           if debugLen > 0 then some (Utf8.lenient (tail.take debugLen)) else none,
                         payload := tail.drop debugLen }
    else if kind == 3 then do
      need rest 2 "event"
      return .event { eventCode := readBigEndian (rest.take 2), payload := rest.drop 2 }
    else .error (.codec s!"unknown message kind {kind}")

def decodeFrame (frame : List UInt8) : Except PeerError Message := do
  need frame lengthSize "length prefix"
  let length := readBigEndian (frame.take 4)
  let body := frame.drop 4
  if body.length != length then
    .error (.codec s!"frame declares {length} bytes, carries {body.length}")
  else decode body

end Switchboard.Peer
