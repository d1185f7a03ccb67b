import Switchboard.Peer.Codec
/-!
# Reassembling frames

Bytes arrive in any split and are buffered. A message is taken once its whole frame is buffered;
its frame is removed even when its body does not decode. A declared length above the limit is an
error that removes nothing, so it repeats until the reader is dropped.
-/
namespace Switchboard.Peer

/-- Buffered bytes and the largest body accepted. -/
structure FrameReader where
  buffer : List UInt8 := []
  maxMessageSize : Nat
  deriving Repr

namespace FrameReader

def push (r : FrameReader) (data : List UInt8) : FrameReader := { r with buffer := r.buffer ++ data }

def buffered (r : FrameReader) : Nat := r.buffer.length

def next (r : FrameReader) : Except PeerError (Option Message) × FrameReader :=
  if r.buffer.length < lengthSize then (.ok none, r)
  else
    let length := readBigEndian (r.buffer.take lengthSize)
    if r.maxMessageSize < length then (.error (.messageTooLarge length), r)
    else
      let total := lengthSize + length
      if r.buffer.length < total then (.ok none, r)
      else
        let message := decode ((r.buffer.drop lengthSize).take length)
        (message.map some, { r with buffer := r.buffer.drop total })

def drainWith (fuel : Nat) (r : FrameReader) : List (Except PeerError Message) × FrameReader :=
  match fuel with
  | 0 => ([], r)
  | fuel + 1 =>
    match r.next with
    | (.ok none, r) => ([], r)
    | (.ok (some m), r) => let (ms, r) := drainWith fuel r; (.ok m :: ms, r)
    | (.error e, r) => ([.error e], r)

/-- Takes messages until none is complete or one fails. Each message taken removes at least its
four-byte prefix, so one more step than there are buffered bytes is always enough. -/
def drain (r : FrameReader) : List (Except PeerError Message) × FrameReader :=
  r.drainWith (r.buffer.length + 1)

end FrameReader

def messagesOf (bytes : List UInt8) : List Message :=
  (({ maxMessageSize := wordMax } : FrameReader).push bytes).drain.1.filterMap fun r => r.toOption

def sortedMessagesOf (bytes : List UInt8) : List Message :=
  (messagesOf bytes).mergeSort fun a b => bytesLe a.encode b.encode

end Switchboard.Peer
