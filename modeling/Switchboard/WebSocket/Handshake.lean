import Switchboard.WebSocket.Engine
import Switchboard.Http.Request
import Switchboard.Http.Response
import Switchboard.Crypto
/-!
# The opening handshake

RFC 6455 §4: the client's upgrade request carries a Base64 nonce, and the server answers `101` with
the Base64 SHA-1 of the nonce followed by a fixed GUID. The server judges the four upgrade headers:
none asks for no upgrade, an invalid or missing one is refused with `400`, and a handler's veto
becomes a `403`.
-/
namespace Switchboard.WebSocket

open Http

def guid : String := "258EAFA5-E914-47DA-95CA-C5AB0DC85B11"

def protocolVersion : String := "13"

variable [Crypto]

def acceptKey (key : String) : String := Crypto.base64 (Crypto.sha1 (utf8 (key ++ guid)))

def generateKey (g : Entropy) : String × Entropy :=
  let (bytes, g) := g.bytes 16
  (Crypto.base64 bytes, g)

def isUpgradeConnection (value : String) : Bool :=
  Ascii.eqFold value "Upgrade" || Ascii.eqFold value "keep-alive, Upgrade"

/-- How a server answered an upgrade request. -/
inductive Upgrade where
  | notRequested
  | rejected
  | accepted
  deriving Repr, DecidableEq

/-- What the server saw of the upgrade headers. -/
structure UpgradeHeaders where
  error : Bool := false
  connection : Bool := false
  upgrade : Bool := false
  version : Bool := false
  accept : Option String := none

def UpgradeHeaders.judge (s : UpgradeHeaders) (h : String × String) : UpgradeHeaders :=
  let (name, value) := h
  if Ascii.eqFold name "Connection" then
    if isUpgradeConnection value then { s with connection := true } else { s with error := true }
  else if Ascii.eqFold name "Upgrade" then
    if Ascii.eqFold value "websocket" then { s with upgrade := true } else { s with error := true }
  else if Ascii.eqFold name "Sec-WebSocket-Key" then
    if value.isEmpty then { s with error := true } else { s with accept := some (acceptKey value) }
  else if Ascii.eqFold name "Sec-WebSocket-Version" then
    if value == protocolVersion then { s with version := true } else { s with error := true }
  else s

/-- The server's answer to a request. `approve` sees the request and the 101 response under
construction, may change the response, and says whether to go ahead; its state `σ` is threaded
through. -/
def Engine.serverUpgrade {σ : Type} (e : Engine) (request : Request) (response : Response)
    (handler : σ) (approve : σ → Request → Response → Bool × Response × σ) :
    Upgrade × Engine × Response × σ :=
  if request.method != "GET" then (.notRequested, e, response, handler)
  else
    let s := request.headers.entries.foldl UpgradeHeaders.judge {}
    if !s.connection && !s.upgrade && !s.version && s.accept.isNone then
      (.notRequested, e, response, handler)
    else
      match s.accept with
      | some accept =>
        if s.connection && s.upgrade && s.version && !s.error then
          let response := (((response.setBegin 101).setHeader "Connection" "Upgrade").setHeader
            "Upgrade" "websocket").setHeader "Sec-WebSocket-Accept" accept
          let (go, response, handler) := approve handler request response
          if go then (.accepted, { e with handshaked := true }, response.setBody [], handler)
          else (.rejected, e, response.makeError 403 "WebSocket upgrade rejected", handler)
        else (.rejected, e, response.makeError 400 "Invalid WebSocket handshake request", handler)
      | none => (.rejected, e, response.makeError 400 "Invalid WebSocket handshake request", handler)

def Engine.clientUpgradeRequest (e : Engine) (request : Request) (host path : String) :
    Engine × Request :=
  let (key, g) := generateKey e.entropy
  let request := (((((request.setBegin "GET" path).setHeader "Host" host).setHeader "Upgrade"
    "websocket").setHeader "Connection" "Upgrade").setHeader "Sec-WebSocket-Key" key).setHeader
    "Sec-WebSocket-Version" protocolVersion
  ({ e with key, entropy := g }, request.setBody [])

def Engine.clientUpgrade (e : Engine) (response : Response) : Except WsError Engine :=
  if response.status != 101 then
    .error (.handshake s!"unexpected status {response.status} {response.phrase}")
  else
    let connection := (response.headers.get? "Connection").any isUpgradeConnection
    let upgrade := (response.headers.get? "Upgrade").any (Ascii.eqFold · "websocket")
    if !connection || !upgrade then .error (.handshake "missing upgrade headers")
    else if response.headers.get? "Sec-WebSocket-Accept" == some (acceptKey e.key) then
      .ok { e with handshaked := true }
    else .error (.handshake "Sec-WebSocket-Accept mismatch")

end Switchboard.WebSocket
