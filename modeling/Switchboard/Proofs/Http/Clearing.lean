import Mathlib
import Switchboard.Http.Request
import Switchboard.Http.Response

/-!
# Clearing a message forgets it

A cleared message keeps its cache's allocation, which a reader cannot tell from a fresh one.
Operations keep two alike messages alike (`Request.Alike.perform`, `Response.Alike.perform`), so a
cleared message answers every later run as a fresh one does (`cleared_messages_act_as_new`).
-/

namespace Switchboard

namespace ByteBuffer

theorem position_write (b : ByteBuffer) (src : List UInt8) : (b.write src).2.position = b.position := by
  unfold write reserve
  split
  · rfl
  · split <;> rfl

/-- Two buffers no reader tells apart: each lies within its allocation, and they hold the same
bytes at the same read position. Only their allocations may differ. -/
structure Alike (x y : ByteBuffer) : Prop where
  fits : x.length ≤ x.capacity
  fits' : y.length ≤ y.capacity
  bytes : x.bytes = y.bytes
  position : x.position = y.position

namespace Alike

variable {x y : ByteBuffer}

theorem length (h : x.Alike y) : x.length = y.length := by
  rw [← length_bytes x h.fits, ← length_bytes y h.fits', h.bytes]

theorem isEmpty (h : x.Alike y) : x.isEmpty = y.isEmpty := by
  rw [ByteBuffer.isEmpty, ByteBuffer.isEmpty, h.length]

theorem write (h : x.Alike y) (src : List UInt8) : (x.write src).2.Alike (y.write src).2 where
  fits := length_le_capacity_write x src h.fits
  fits' := length_le_capacity_write y src h.fits'
  bytes := by rw [bytes_write x src h.fits, bytes_write y src h.fits', h.bytes]
  position := by rw [position_write, position_write, h.position]

end Alike

theorem alike_clear (x y : ByteBuffer) : x.clear.Alike y.clear := ⟨Nat.zero_le _, Nat.zero_le _, rfl, rfl⟩

end ByteBuffer

namespace Http

namespace Message

/-- Two messages no reader tells apart: alike caches, and the same fields besides. -/
structure Alike (m n : Message) : Prop where
  cache : m.cache.Alike n.cache
  headers : m.headers = n.headers
  cookies : m.cookies = n.cookies
  cursor : m.cursor = n.cursor
  state : m.state = n.state

theorem alike_clear (m n : Message) : m.clear.Alike n.clear := ⟨ByteBuffer.alike_clear _ _, rfl, rfl, rfl, rfl⟩

namespace Alike

variable {m n : Message}

theorem writeText (h : m.Alike n) (s : String) : (m.writeText s).Alike (n.writeText s) :=
  ⟨h.cache.write _, h.headers, h.cookies, h.cursor, h.state⟩

theorem addHeader (h : m.Alike n) (name value : String) : (m.addHeader name value).Alike (n.addHeader name value) :=
  ⟨(h.writeText _).cache, by simp only [Message.addHeader, Message.writeText, h.headers], h.cookies, h.cursor,
    h.state⟩

theorem setBody (h : m.Alike n) (body : List UInt8) : (m.setBody body).Alike (n.setBody body) := by
  have ended := (h.addHeader "Content-Length" (toString body.length)).writeText crlf
  exact ⟨ended.cache.write body, ended.headers, ended.cookies, by simp only [Message.setBody, ended.cache.length],
    rfl⟩

theorem setBodyLength (h : m.Alike n) (length : Nat) : (m.setBodyLength length).Alike (n.setBodyLength length) := by
  have ended := (h.addHeader "Content-Length" (toString length)).writeText crlf
  exact ⟨ended.cache, ended.headers, ended.cookies, by simp only [Message.setBodyLength, ended.cache.length], rfl⟩

theorem receiveBody (h : m.Alike n) (bytes : List UInt8) (bodyless : Bool) :
    (m.receiveBody bytes bodyless).1 = (n.receiveBody bytes bodyless).1 ∧
      (m.receiveBody bytes bodyless).2.Alike (n.receiveBody bytes bodyless).2 := by
  have written := h.cache.write bytes
  have fed : m.cursor.feed (m.cache.write bytes).2.bytes bytes.length bodyless =
      n.cursor.feed (n.cache.write bytes).2.bytes bytes.length bodyless := by
    rw [written.bytes, h.cursor]
  exact ⟨by simp only [Message.receiveBody, fed], written, h.headers, h.cookies,
    by simp only [Message.receiveBody, fed], by simp only [Message.receiveBody, fed, h.state]⟩

theorem receiveHeader {α : Type} (h : m.Alike n) (bytes : List UInt8) (cookieHeader : String)
    (read : StartLine → Except HttpError α) :
    (m.receiveHeader bytes cookieHeader read).1 = (n.receiveHeader bytes cookieHeader read).1 ∧
      (m.receiveHeader bytes cookieHeader read).2.Alike (n.receiveHeader bytes cookieHeader read).2 := by
  obtain ⟨cache, headers, cookies, cursor, state⟩ := h
  rcases m with ⟨x, _, _, _, _⟩
  rcases n with ⟨y, _, _, _, _⟩
  dsimp only at headers cookies cursor state
  subst headers cookies cursor state
  have written := cache.write bytes
  simp only [Message.receiveHeader, written.bytes, written.length, written.isEmpty]
  -- both feeds now take the same branches; in each the messages differ only in their caches
  cases findTerminator (y.write bytes).2.bytes _ with
  | none => cases (y.write bytes).2.isEmpty <;> exact ⟨rfl, written, rfl, rfl, rfl, rfl⟩
  | some t =>
    dsimp only
    cases parseStartLine ((y.write bytes).2.bytes.take (t + 2)) >>= fun line => (read line).map fun a => (line, a) with
    | error e => exact ⟨rfl, written, rfl, rfl, rfl, rfl⟩
    | ok read =>
      dsimp only
      cases (parseHeaderLines ((y.write bytes).2.bytes.take (t + 2)) read.1.next cookieHeader).1 <;>
        exact ⟨rfl, written, rfl, rfl, rfl, rfl⟩

end Alike

end Message

namespace Request

/-- Two requests no reader tells apart: alike messages with the same start line. -/
structure Alike (r s : Request) : Prop where
  message : r.toMessage.Alike s.toMessage
  method : r.method = s.method
  url : r.url = s.url
  protocol : r.protocol = s.protocol

namespace Alike

variable {r s : Request}

theorem setBegin (r s : Request) (method url : String) : (r.setBegin method url).Alike (s.setBegin method url) :=
  ⟨(Message.alike_clear _ _).writeText _, rfl, rfl, rfl⟩

theorem setHeader (h : r.Alike s) (name value : String) : (r.setHeader name value).Alike (s.setHeader name value) :=
  ⟨h.message.addHeader name value, h.method, h.url, h.protocol⟩

theorem setCookie (h : r.Alike s) (name value : String) : (r.setCookie name value).Alike (s.setCookie name value) :=
  have header := (h.setHeader "Cookie" (name ++ "=" ++ value)).message
  ⟨⟨header.cache, header.headers, congrArg (·.insert name value) header.cookies, header.cursor, header.state⟩,
    h.method, h.url, h.protocol⟩

theorem setBody (h : r.Alike s) (body : List UInt8) : (r.setBody body).Alike (s.setBody body) :=
  ⟨h.message.setBody body, h.method, h.url, h.protocol⟩

theorem setBodyLength (h : r.Alike s) (length : Nat) : (r.setBodyLength length).Alike (s.setBodyLength length) :=
  ⟨h.message.setBodyLength length, h.method, h.url, h.protocol⟩

theorem receiveHeader (h : r.Alike s) (bytes : List UInt8) :
    (r.receiveHeader bytes).1 = (s.receiveHeader bytes).1 ∧ (r.receiveHeader bytes).2.Alike (s.receiveHeader bytes).2 := by
  obtain ⟨same, alike⟩ := h.message.receiveHeader bytes "Cookie" Except.ok
  unfold Request.receiveHeader
  revert same alike
  cases r.toMessage.receiveHeader bytes "Cookie" Except.ok with | mk line m => ?_
  cases s.toMessage.receiveHeader bytes "Cookie" Except.ok with | mk line' n => ?_
  rintro (rfl : line = line') alike
  cases line with
  | none => exact ⟨rfl, alike, h.method, h.url, h.protocol⟩
  | some line => exact ⟨rfl, alike, rfl, rfl, rfl⟩

theorem receiveBody (h : r.Alike s) (bytes : List UInt8) :
    (r.receiveBody bytes).1 = (s.receiveBody bytes).1 ∧ (r.receiveBody bytes).2.Alike (s.receiveBody bytes).2 := by
  have kind : r.methodKind = s.methodKind := congrArg Method.ofName? h.method
  have fed := h.message.receiveBody bytes (s.methodKind.any Method.bodyless)
  unfold Request.receiveBody
  rw [kind]
  exact ⟨fed.1, fed.2, h.method, h.url, h.protocol⟩

/-- Alike requests answer every operation alike and stay alike. -/
theorem perform (h : r.Alike s) (c : Command) : (r.perform c).1 = (s.perform c).1 ∧ (r.perform c).2.Alike (s.perform c).2 := by
  cases c with
  | receiveHeader bytes => exact ⟨congrArg some (h.receiveHeader bytes).1, (h.receiveHeader bytes).2⟩
  | receiveBody bytes => exact ⟨congrArg some (h.receiveBody bytes).1, (h.receiveBody bytes).2⟩
  | clear => exact ⟨rfl, Message.alike_clear _ _, rfl, rfl, rfl⟩
  | setBegin method url => exact ⟨rfl, setBegin r s method url⟩
  | setHeader name value => exact ⟨rfl, h.setHeader name value⟩
  | setCookie name value => exact ⟨rfl, h.setCookie name value⟩
  | setBody bytes => exact ⟨rfl, h.setBody bytes⟩
  | setBodyLength length => exact ⟨rfl, h.setBodyLength length⟩
  | make method url => exact ⟨rfl, (setBegin r s method.name url).setBody []⟩
  | makeContent method url content contentType =>
    refine ⟨rfl, ?_⟩
    have started := setBegin r s method.name url
    show (r.makeContent method url content contentType).Alike (s.makeContent method url content contentType)
    unfold Request.makeContent
    dsimp only
    by_cases untyped : contentType.isEmpty = true
    · rw [if_pos untyped, if_pos untyped]
      exact started.setBody content
    · rw [if_neg untyped, if_neg untyped]
      exact (started.setHeader "Content-Type" contentType).setBody content

end Alike

end Request

namespace Response

/-- Two responses no reader tells apart: alike messages with the same status line. -/
structure Alike (r s : Response) : Prop where
  message : r.toMessage.Alike s.toMessage
  status : r.status = s.status
  phrase : r.phrase = s.phrase
  protocol : r.protocol = s.protocol

namespace Alike

variable {r s : Response}

theorem setBeginWith (r s : Response) (status : Nat) (protocol : String) :
    (r.setBeginWith status protocol).Alike (s.setBeginWith status protocol) :=
  ⟨(Message.alike_clear _ _).writeText _, rfl, rfl, rfl⟩

theorem setHeader (h : r.Alike s) (name value : String) : (r.setHeader name value).Alike (s.setHeader name value) :=
  ⟨h.message.addHeader name value, h.status, h.phrase, h.protocol⟩

theorem setCookie (h : r.Alike s) (c : SetCookie) : (r.setCookie c).Alike (s.setCookie c) :=
  have header := (h.setHeader "Set-Cookie" c.render).message
  ⟨⟨header.cache, header.headers, congrArg (·.insert c.name c.value) header.cookies, header.cursor, header.state⟩,
    h.status, h.phrase, h.protocol⟩

theorem setBody (h : r.Alike s) (body : List UInt8) : (r.setBody body).Alike (s.setBody body) :=
  ⟨h.message.setBody body, h.status, h.phrase, h.protocol⟩

theorem setBodyLength (h : r.Alike s) (length : Nat) : (r.setBodyLength length).Alike (s.setBodyLength length) :=
  ⟨h.message.setBodyLength length, h.status, h.phrase, h.protocol⟩

theorem receiveHeader (h : r.Alike s) (bytes : List UInt8) :
    (r.receiveHeader bytes).1 = (s.receiveHeader bytes).1 ∧ (r.receiveHeader bytes).2.Alike (s.receiveHeader bytes).2 := by
  obtain ⟨same, alike⟩ := h.message.receiveHeader bytes "Set-Cookie" fun line => (readStatus line).map (line, ·)
  unfold Response.receiveHeader
  revert same alike
  cases r.toMessage.receiveHeader bytes "Set-Cookie" fun line => (readStatus line).map (line, ·) with
  | mk read m => ?_
  cases s.toMessage.receiveHeader bytes "Set-Cookie" fun line => (readStatus line).map (line, ·) with
  | mk read' n => ?_
  rintro (rfl : read = read') alike
  cases read with
  | none => exact ⟨rfl, alike, h.status, h.phrase, h.protocol⟩
  | some read => exact ⟨rfl, alike, rfl, rfl, rfl⟩

theorem receiveBody (h : r.Alike s) (bytes : List UInt8) :
    (r.receiveBody bytes).1 = (s.receiveBody bytes).1 ∧ (r.receiveBody bytes).2.Alike (s.receiveBody bytes).2 := by
  have fed := h.message.receiveBody bytes s.bodyless
  unfold Response.receiveBody
  rw [show r.bodyless = s.bodyless by rw [Response.bodyless, Response.bodyless, h.status]]
  exact ⟨fed.1, fed.2, h.status, h.phrase, h.protocol⟩

/-- Alike responses answer every operation alike and stay alike. -/
theorem perform (h : r.Alike s) (c : Command) : (r.perform c).1 = (s.perform c).1 ∧ (r.perform c).2.Alike (s.perform c).2 := by
  cases c with
  | receiveHeader bytes => exact ⟨congrArg some (h.receiveHeader bytes).1, (h.receiveHeader bytes).2⟩
  | receiveBody bytes => exact ⟨congrArg some (h.receiveBody bytes).1, (h.receiveBody bytes).2⟩
  | clear => exact ⟨rfl, Message.alike_clear _ _, rfl, rfl, rfl⟩
  | setBegin status protocol => exact ⟨rfl, setBeginWith r s status protocol⟩
  | setHeader name value => exact ⟨rfl, h.setHeader name value⟩
  | setCookie c => exact ⟨rfl, h.setCookie c⟩
  | setBody bytes => exact ⟨rfl, h.setBody bytes⟩
  | setBodyLength length => exact ⟨rfl, h.setBodyLength length⟩
  | makeOk => exact ⟨rfl, (setBeginWith r s 200 http11).setBody []⟩
  | makeError status content =>
    exact ⟨rfl, ((setBeginWith r s status http11).setHeader _ _).setBody _⟩
  | makeGet content contentType =>
    refine ⟨rfl, ?_⟩
    have started := setBeginWith r s 200 http11
    show (r.makeGet content contentType).Alike (s.makeGet content contentType)
    unfold Response.makeGet
    dsimp only
    by_cases untyped : contentType.isEmpty = true
    · rw [if_pos untyped, if_pos untyped]
      exact started.setBody content
    · rw [if_neg untyped, if_neg untyped]
      exact (started.setHeader "Content-Type" contentType).setBody content
  | makeOptions => exact ⟨rfl, ((setBeginWith r s 200 http11).setHeader _ _).setBody []⟩
  | makeTrace request => exact ⟨rfl, ((setBeginWith r s 200 http11).setHeader _ _).setBody request⟩

end Alike

end Response

end Http

/-- The answers to a sequence of operations, each made on what the ones before it left, and what
they leave at the end. -/
def replay {σ κ α : Type} (step : σ → κ → α × σ) (s : σ) : List κ → List α × σ
  | [] => ([], s)
  | c :: cs =>
    let first := step s c
    let rest := replay step first.2 cs
    (first.1 :: rest.1, rest.2)

/-- States related so that each step answers them alike and keeps them related answer every
sequence of steps alike and stay related. The induction is on the steps, generalizing the two
states. -/
theorem replay_related {σ κ α : Type} {step : σ → κ → α × σ} (R : σ → σ → Prop)
    (preserves : ∀ s s' c, R s s' → (step s c).1 = (step s' c).1 ∧ R (step s c).2 (step s' c).2)
    {s s' : σ} (related : R s s') (cs : List κ) :
    (replay step s cs).1 = (replay step s' cs).1 ∧ R (replay step s cs).2 (replay step s' cs).2 := by
  induction cs generalizing s s' with
  | nil => exact ⟨rfl, related⟩
  | cons c cs ih =>
    obtain ⟨same, next⟩ := preserves s s' c related
    obtain ⟨rest, last⟩ := ih next
    exact ⟨by simp only [replay, same, rest], last⟩

open Http in
/-- A cleared request or response answers every later sequence of operations as a fresh one does,
and ends alike to it: the same start line, fields, body offsets, state and bytes, differing at most
in its cache's allocation. Starting a message, which clears it first, composes the same message on
a used object as on a fresh one. -/
theorem cleared_messages_act_as_new :
    (∀ (r : Request) (cs : List Request.Command),
      (replay Request.perform r.clear cs).1 = (replay Request.perform {} cs).1 ∧
        (replay Request.perform r.clear cs).2.Alike (replay Request.perform {} cs).2) ∧
    (∀ (r : Request) (method url : String), (r.setBegin method url).Alike (({} : Request).setBegin method url)) ∧
    (∀ (r : Response) (cs : List Response.Command),
      (replay Response.perform r.clear cs).1 = (replay Response.perform {} cs).1 ∧
        (replay Response.perform r.clear cs).2.Alike (replay Response.perform {} cs).2) ∧
    (∀ (r : Response) (status : Nat) (protocol : String),
      (r.setBeginWith status protocol).Alike (({} : Response).setBeginWith status protocol)) :=
  ⟨fun r => replay_related Request.Alike (fun _ _ c h => h.perform c)
      ⟨Message.alike_clear r.toMessage {}, rfl, rfl, rfl⟩,
    fun r => Request.Alike.setBegin r {},
    fun r => replay_related Response.Alike (fun _ _ c h => h.perform c)
      ⟨Message.alike_clear r.toMessage {}, rfl, rfl, rfl⟩,
    fun r => Response.Alike.setBeginWith r {}⟩

end Switchboard
