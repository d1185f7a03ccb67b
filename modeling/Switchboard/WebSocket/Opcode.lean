import Switchboard.Http.Error
/-!
# WebSocket opcodes and errors

The six opcodes of RFC 6455 §5.2. Control opcodes have bit 3 set. Errors of the WebSocket layer
wrap HTTP errors and add handshake and protocol failures.
-/
namespace Switchboard.WebSocket

/-- A frame opcode. -/
inductive Opcode where
  | continuation | text | binary | close | ping | pong
  deriving Repr, DecidableEq

namespace Opcode

def code : Opcode → Nat
  | .continuation => 0
  | .text => 1
  | .binary => 2
  | .close => 8
  | .ping => 9
  | .pong => 10

def ofCode? : Nat → Option Opcode
  | 0 => some .continuation
  | 1 => some .text
  | 2 => some .binary
  | 8 => some .close
  | 9 => some .ping
  | 10 => some .pong
  | _ => none

def isControl (o : Opcode) : Bool := o.code &&& 8 != 0

end Opcode

def closeNormal : Nat := 1000

/-- Why a WebSocket operation failed. -/
inductive WsError where
  | http (e : Http.HttpError)
  | handshake (text : String)
  | protocol (text : String)
  | notConnected
  | closed
  deriving Repr, DecidableEq

def WsError.message : WsError → String
  | .http e => s!"HTTP error: {e.message}"
  | .handshake t => s!"Handshake failed: {t}"
  | .protocol t => s!"Protocol error: {t}"
  | .notConnected => "Not connected"
  | .closed => "Connection closed"

end Switchboard.WebSocket
