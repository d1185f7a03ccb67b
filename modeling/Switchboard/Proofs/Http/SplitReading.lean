import Switchboard.Proofs.Http.Reception
import Switchboard.Http.Request
import Switchboard.Http.Response
/-!
# Reading requests and responses in pieces

Requests and responses are received by the same header and body reads, and differ in how they read
their start line and in which messages have no body. Each is a reception of its own reader, so
reading one in pieces agrees with reading it at once wherever the pieces are cut.
-/
namespace Switchboard.Http

namespace Request

/-- How a request reads its start line: method, target and protocol, with cookies in `Cookie`. A
request whose method is one of the bodyless ones has no body unless it declares a length. -/
def reader : Reader StartLine where
  cookieHeader := "Cookie"
  read := Except.ok
  bodyless line := (Method.ofName? ((line.map (·.first)).getD "")).any Method.bodyless

def ofReception (s : Reception StartLine) : Request :=
  { toMessage := s.message, method := (s.answer.map (·.first)).getD "",
    url := (s.answer.map (·.second)).getD "", protocol := (s.answer.map (·.third)).getD "" }

def receiver : Receiver Request where
  pending r := r.isPendingHeader
  settled r := r.state == .complete || r.state == .errorSet
  header := receiveHeader
  body := receiveBody

theorem header_ofReception (s : Reception StartLine) (c : List UInt8) :
    receiver.header (ofReception s) c =
      ((reader.receiver.header s c).1, ofReception (reader.receiver.header s c).2) := by
  simp only [receiver, Reader.receiver, receiveHeader, ofReception, reader]
  cases s.message.receiveHeader c "Cookie" Except.ok with
  | mk a m => cases a <;> rfl

theorem receiveChunks_ofReception (s : Reception StartLine) (cs : List (List UInt8)) :
    receiver.receiveChunks (ofReception s) cs = ofReception (reader.receiver.receiveChunks s cs) :=
  Receiver.receiveChunks_map receiver reader.receiver ofReception (fun _ => rfl) (fun _ => rfl)
    header_ofReception (fun _ _ => rfl) s cs

theorem ofBytes_eq_ofReception (m : List UInt8) : ofBytes m = ofReception (reader.receiveAll m) := by
  have once := Receiver.receive_map receiver reader.receiver ofReception (fun _ => rfl)
    header_ofReception (fun _ _ => rfl) {} m
  have first : ofBytes m = (receiver.receive (ofReception {}) m).2 := by
    have fresh : ofReception {} = {} := rfl
    rw [fresh, Receiver.receive_of_pending receiver rfl]
    simp only [ofBytes, receiver]
    split <;> simp_all
  rw [Reader.receiveAll, first, once]

theorem receiveChunks_take (cs : List (List UInt8)) (k : Nat) :
    ((receiver.receiveChunks {} (cs.take k)).isPendingHeader = true ↔
        ∀ t, findTerminator cs.flatten 0 = some t → (cs.take k).flatten.length < t + 4) ∧
      ((receiver.receiveChunks {} (cs.take k)).state = .errorSet ↔
        (ofBytes cs.flatten).state = .errorSet ∧
          (receiver.receiveChunks {} (cs.take k)).isPendingHeader = false) ∧
      ∀ t, findTerminator cs.flatten 0 = some t → (ofBytes cs.flatten).state ≠ .errorSet →
        ((ofBytes cs.flatten).cursor.lengthGiven = true ∨
          (ofBytes cs.flatten).methodKind.any Method.bodyless = true) →
        ((receiver.receiveChunks {} (cs.take k)).state = .complete ↔
            t + 4 + (ofBytes cs.flatten).bodyLength ≤ (cs.take k).flatten.length) ∧
          ((receiver.receiveChunks {} (cs.take k)).state = .complete →
            (receiver.receiveChunks {} (cs.take k)).method = (ofBytes cs.flatten).method ∧
            (receiver.receiveChunks {} (cs.take k)).url = (ofBytes cs.flatten).url ∧
            (receiver.receiveChunks {} (cs.take k)).protocol = (ofBytes cs.flatten).protocol ∧
            (receiver.receiveChunks {} (cs.take k)).headers = (ofBytes cs.flatten).headers ∧
            (receiver.receiveChunks {} (cs.take k)).cookies = (ofBytes cs.flatten).cookies ∧
            (receiver.receiveChunks {} (cs.take k)).body = (ofBytes cs.flatten).body ∧
            (receiver.receiveChunks {} (cs.take k)).bodyLength = (ofBytes cs.flatten).bodyLength) := by
  obtain ⟨pending, failed, complete⟩ := reader.receiveChunks_take cs k
  have fresh : receiver.receiveChunks {} (cs.take k) =
      ofReception (reader.receiver.receiveChunks {} (cs.take k)) :=
    receiveChunks_ofReception {} (cs.take k)
  rw [fresh, ofBytes_eq_ofReception]
  refine ⟨pending, failed, fun t found read framed => ?_⟩
  obtain ⟨done, same⟩ := complete t found read framed
  refine ⟨done, fun finished => ?_⟩
  obtain ⟨answer, headers, cookies, body, bodyLength⟩ := same finished
  simp only [ofReception]
  rw [answer]
  exact ⟨rfl, rfl, rfl, headers, cookies, body, bodyLength⟩

end Request

end Switchboard.Http

namespace Switchboard.Http

namespace Response

/-- How a response reads its start line: protocol, status and phrase, the status all digits and at
most 65535, with cookies in `Set-Cookie`. A response whose status forbids a body has none unless it
declares a length. -/
def reader : Reader (StartLine × Nat) where
  cookieHeader := "Set-Cookie"
  read line := (readStatus line).map (line, ·)
  bodyless line := ({ status := (line.map (·.2)).getD 0 } : Response).bodyless

def ofReception (s : Reception (StartLine × Nat)) : Response :=
  { toMessage := s.message, status := (s.answer.map (·.2)).getD 0,
    phrase := (s.answer.map (·.1.third)).getD "", protocol := (s.answer.map (·.1.first)).getD "" }

def receiver : Receiver Response where
  pending r := r.isPendingHeader
  settled r := r.state == .complete || r.state == .errorSet
  header := receiveHeader
  body := receiveBody

theorem header_ofReception (s : Reception (StartLine × Nat)) (c : List UInt8) :
    receiver.header (ofReception s) c =
      ((reader.receiver.header s c).1, ofReception (reader.receiver.header s c).2) := by
  simp only [receiver, Reader.receiver, receiveHeader, ofReception, reader]
  cases s.message.receiveHeader c "Set-Cookie" (fun line => (readStatus line).map (line, ·)) with
  | mk a m => cases a <;> rfl

theorem receiveChunks_ofReception (s : Reception (StartLine × Nat)) (cs : List (List UInt8)) :
    receiver.receiveChunks (ofReception s) cs = ofReception (reader.receiver.receiveChunks s cs) :=
  Receiver.receiveChunks_map receiver reader.receiver ofReception (fun _ => rfl) (fun _ => rfl)
    header_ofReception (fun _ _ => rfl) s cs

theorem ofBytes_eq_ofReception (m : List UInt8) : ofBytes m = ofReception (reader.receiveAll m) := by
  have once := Receiver.receive_map receiver reader.receiver ofReception (fun _ => rfl)
    header_ofReception (fun _ _ => rfl) {} m
  have first : ofBytes m = (receiver.receive (ofReception {}) m).2 := by
    have fresh : ofReception {} = {} := rfl
    rw [fresh, Receiver.receive_of_pending receiver rfl]
    simp only [ofBytes, receiver]
    split <;> simp_all
  rw [Reader.receiveAll, first, once]

theorem receiveChunks_take (cs : List (List UInt8)) (k : Nat) :
    ((receiver.receiveChunks {} (cs.take k)).isPendingHeader = true ↔
        ∀ t, findTerminator cs.flatten 0 = some t → (cs.take k).flatten.length < t + 4) ∧
      ((receiver.receiveChunks {} (cs.take k)).state = .errorSet ↔
        (ofBytes cs.flatten).state = .errorSet ∧
          (receiver.receiveChunks {} (cs.take k)).isPendingHeader = false) ∧
      ∀ t, findTerminator cs.flatten 0 = some t → (ofBytes cs.flatten).state ≠ .errorSet →
        ((ofBytes cs.flatten).cursor.lengthGiven = true ∨ (ofBytes cs.flatten).bodyless = true) →
        ((receiver.receiveChunks {} (cs.take k)).state = .complete ↔
            t + 4 + (ofBytes cs.flatten).bodyLength ≤ (cs.take k).flatten.length) ∧
          ((receiver.receiveChunks {} (cs.take k)).state = .complete →
            (receiver.receiveChunks {} (cs.take k)).status = (ofBytes cs.flatten).status ∧
            (receiver.receiveChunks {} (cs.take k)).phrase = (ofBytes cs.flatten).phrase ∧
            (receiver.receiveChunks {} (cs.take k)).protocol = (ofBytes cs.flatten).protocol ∧
            (receiver.receiveChunks {} (cs.take k)).headers = (ofBytes cs.flatten).headers ∧
            (receiver.receiveChunks {} (cs.take k)).cookies = (ofBytes cs.flatten).cookies ∧
            (receiver.receiveChunks {} (cs.take k)).body = (ofBytes cs.flatten).body ∧
            (receiver.receiveChunks {} (cs.take k)).bodyLength = (ofBytes cs.flatten).bodyLength) := by
  obtain ⟨pending, failed, complete⟩ := reader.receiveChunks_take cs k
  have fresh : receiver.receiveChunks {} (cs.take k) =
      ofReception (reader.receiver.receiveChunks {} (cs.take k)) :=
    receiveChunks_ofReception {} (cs.take k)
  rw [fresh, ofBytes_eq_ofReception]
  refine ⟨pending, failed, fun t found read framed => ?_⟩
  obtain ⟨done, same⟩ := complete t found read framed
  refine ⟨done, fun finished => ?_⟩
  obtain ⟨answer, headers, cookies, body, bodyLength⟩ := same finished
  simp only [ofReception]
  rw [answer]
  exact ⟨rfl, rfl, rfl, headers, cookies, body, bodyLength⟩

end Response

end Switchboard.Http

namespace Switchboard.Http

/-- Requests and responses read in pieces, cut anywhere, against the same bytes read at once. After
the first `k` pieces the header block is still awaited exactly while the pieces end before the
first terminator's end; the message has failed exactly when reading at once fails and the pieces
have passed that point; and once the header block reads and the body is framed, by a declared
length or by having none, the message is complete exactly when the pieces reach the end of the
body, and then holds the start line, fields, cookies and body read at once. -/
theorem reading_in_pieces_agrees_with_reading_at_once (cs : List (List UInt8)) (k : Nat) :
    (((Request.receiver.receiveChunks {} (cs.take k)).isPendingHeader = true ↔
        ∀ t, findTerminator cs.flatten 0 = some t → (cs.take k).flatten.length < t + 4) ∧
      ((Request.receiver.receiveChunks {} (cs.take k)).state = .errorSet ↔
        (Request.ofBytes cs.flatten).state = .errorSet ∧
          (Request.receiver.receiveChunks {} (cs.take k)).isPendingHeader = false) ∧
      ∀ t, findTerminator cs.flatten 0 = some t → (Request.ofBytes cs.flatten).state ≠ .errorSet →
        ((Request.ofBytes cs.flatten).cursor.lengthGiven = true ∨
          (Request.ofBytes cs.flatten).methodKind.any Method.bodyless = true) →
        ((Request.receiver.receiveChunks {} (cs.take k)).state = .complete ↔
            t + 4 + (Request.ofBytes cs.flatten).bodyLength ≤ (cs.take k).flatten.length) ∧
          ((Request.receiver.receiveChunks {} (cs.take k)).state = .complete →
            (Request.receiver.receiveChunks {} (cs.take k)).method = (Request.ofBytes cs.flatten).method ∧
            (Request.receiver.receiveChunks {} (cs.take k)).url = (Request.ofBytes cs.flatten).url ∧
            (Request.receiver.receiveChunks {} (cs.take k)).protocol =
              (Request.ofBytes cs.flatten).protocol ∧
            (Request.receiver.receiveChunks {} (cs.take k)).headers = (Request.ofBytes cs.flatten).headers ∧
            (Request.receiver.receiveChunks {} (cs.take k)).cookies = (Request.ofBytes cs.flatten).cookies ∧
            (Request.receiver.receiveChunks {} (cs.take k)).body = (Request.ofBytes cs.flatten).body ∧
            (Request.receiver.receiveChunks {} (cs.take k)).bodyLength =
              (Request.ofBytes cs.flatten).bodyLength)) ∧
    (((Response.receiver.receiveChunks {} (cs.take k)).isPendingHeader = true ↔
        ∀ t, findTerminator cs.flatten 0 = some t → (cs.take k).flatten.length < t + 4) ∧
      ((Response.receiver.receiveChunks {} (cs.take k)).state = .errorSet ↔
        (Response.ofBytes cs.flatten).state = .errorSet ∧
          (Response.receiver.receiveChunks {} (cs.take k)).isPendingHeader = false) ∧
      ∀ t, findTerminator cs.flatten 0 = some t → (Response.ofBytes cs.flatten).state ≠ .errorSet →
        ((Response.ofBytes cs.flatten).cursor.lengthGiven = true ∨
          (Response.ofBytes cs.flatten).bodyless = true) →
        ((Response.receiver.receiveChunks {} (cs.take k)).state = .complete ↔
            t + 4 + (Response.ofBytes cs.flatten).bodyLength ≤ (cs.take k).flatten.length) ∧
          ((Response.receiver.receiveChunks {} (cs.take k)).state = .complete →
            (Response.receiver.receiveChunks {} (cs.take k)).status = (Response.ofBytes cs.flatten).status ∧
            (Response.receiver.receiveChunks {} (cs.take k)).phrase = (Response.ofBytes cs.flatten).phrase ∧
            (Response.receiver.receiveChunks {} (cs.take k)).protocol =
              (Response.ofBytes cs.flatten).protocol ∧
            (Response.receiver.receiveChunks {} (cs.take k)).headers =
              (Response.ofBytes cs.flatten).headers ∧
            (Response.receiver.receiveChunks {} (cs.take k)).cookies =
              (Response.ofBytes cs.flatten).cookies ∧
            (Response.receiver.receiveChunks {} (cs.take k)).body = (Response.ofBytes cs.flatten).body ∧
            (Response.receiver.receiveChunks {} (cs.take k)).bodyLength =
              (Response.ofBytes cs.flatten).bodyLength)) :=
  ⟨Request.receiveChunks_take cs k, Response.receiveChunks_take cs k⟩

end Switchboard.Http
