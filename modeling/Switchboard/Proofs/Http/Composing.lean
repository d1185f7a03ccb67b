import Mathlib
import Switchboard.Http.Request
import Switchboard.Proofs.Http.HeaderReading

/-!
# Composing requests

A client composes a request by setting its start line, then headers and cookies one after another,
then its body, which declares its length. `Composing` and `Composed` say what the request holds at
each stage: the bytes of its cache, its fields and its body. The conditions on texts say which
ones a reader gets back as they were written.
-/

namespace Switchboard.Http

def StartToken (s : String) : Prop := ' ' ∉ s.toList ∧ '\r' ∉ s.toList

def HeaderName (s : String) : Prop := s ≠ "" ∧ ':' ∉ s.toList ∧ '\r' ∉ s.toList

def HeaderValue (s : String) : Prop :=
  '\r' ∉ s.toList ∧ s.toList.head? ≠ some ' ' ∧ s.toList.head? ≠ some '\t'

def CookieToken (s : String) : Prop :=
  s ≠ "" ∧ ' ' ∉ s.toList ∧ '=' ∉ s.toList ∧ ';' ∉ s.toList ∧ '\r' ∉ s.toList

instance : DecidablePred StartToken := fun _ => inferInstanceAs (Decidable (_ ∧ _))
instance : DecidablePred HeaderName := fun _ => inferInstanceAs (Decidable (_ ∧ _ ∧ _))
instance : DecidablePred HeaderValue := fun _ => inferInstanceAs (Decidable (_ ∧ _ ∧ _))
instance : DecidablePred CookieToken := fun _ => inferInstanceAs (Decidable (_ ∧ _ ∧ _ ∧ _ ∧ _))

namespace Request.Command

def header? : Command → Option (String × String)
  | .setHeader name value => some (name, value)
  | .setCookie name value => some ("Cookie", name ++ "=" ++ value)
  | _ => none

def cookie? : Command → Option (String × String)
  | .setCookie name value => some (name, value)
  | _ => none

/-- A header or cookie whose line reads back: a header neither `Content-Length` nor `Cookie`, with
a name and a value that read back; a cookie whose name and value are cookie tokens, the name not
starting with a tab. -/
def Composable : Command → Prop
  | .setHeader name value => HeaderName name ∧ HeaderValue value ∧
      Ascii.eqFold name "Content-Length" = false ∧ Ascii.eqFold name "Cookie" = false
  | .setCookie name value => CookieToken name ∧ CookieToken value ∧ name.toList.head? ≠ some '\t'
  | _ => False

instance : DecidablePred Composable
  | .setHeader _ _ => inferInstanceAs (Decidable (_ ∧ _ ∧ _ ∧ _))
  | .setCookie _ _ => inferInstanceAs (Decidable (_ ∧ _ ∧ _))
  | .receiveHeader _ | .receiveBody _ | .clear | .setBegin _ _ | .setBody _ | .setBodyLength _
  | .make _ _ | .makeContent _ _ _ _ => isFalse id

end Request.Command

def Request.compose (r : Request) (method url : String) (cmds : List Request.Command)
    (body : List UInt8) : Request :=
  (cmds.foldl (fun r c => (r.perform c).2) (r.setBegin method url)).setBody body

def startText (method url : String) : List UInt8 := utf8 method ++ 32 :: (utf8 url ++ 32 :: utf8 http11)

def lineText (header : String × String) : List UInt8 := utf8 header.1 ++ 58 :: 32 :: utf8 header.2

theorem utf8_crlf : utf8 crlf = [13, 10] := by simp [crlf, utf8_eq_map]

theorem utf8_startLine (method url : String) :
    utf8 (method ++ " " ++ url ++ " " ++ http11 ++ crlf) = startText method url ++ [13, 10] := by
  simp [startText, utf8_crlf, utf8_eq_map (s := " ")]

theorem utf8_headerLine (name value : String) :
    utf8 (name ++ ": " ++ value ++ crlf) = lineText (name, value) ++ [13, 10] := by
  simp [lineText, utf8_crlf, utf8_eq_map (s := ": ")]

namespace Message

theorem raw_writeText {m : Message} (sized : m.cache.length ≤ m.cache.capacity) (s : String) :
    (m.writeText s).raw = m.raw ++ utf8 s :=
  ByteBuffer.bytes_write _ _ sized

theorem sized_writeText {m : Message} (sized : m.cache.length ≤ m.cache.capacity) (s : String) :
    (m.writeText s).cache.length ≤ (m.writeText s).cache.capacity :=
  ByteBuffer.length_le_capacity_write _ _ sized

end Message

/-- A request being composed: the start line of `method` and `url`, then the header lines of
`cmds`, with the headers and cookies they set. -/
structure Composing (r : Request) (method url : String) (cmds : List Request.Command) : Prop where
  sized : r.cache.length ≤ r.cache.capacity
  raw : r.raw = startText method url ++ 13 :: 10 :: crlfLines ((cmds.filterMap Request.Command.header?).map lineText)
  headers : r.headers = ⟨cmds.filterMap Request.Command.header?⟩
  cookies : r.cookies = ⟨cmds.filterMap Request.Command.cookie?⟩
  method : r.method = method
  url : r.url = url
  protocol : r.protocol = http11

theorem composing_setBegin (r : Request) (method url : String) :
    Composing (r.setBegin method url) method url [] where
  sized := Message.sized_writeText (Nat.zero_le _) _
  raw := by
    have empty : r.toMessage.clear.raw = [] := by
      simp [Message.clear, Message.raw, ByteBuffer.clear, ByteBuffer.bytes]
    show (r.toMessage.clear.writeText _).raw = _
    rw [Message.raw_writeText (Nat.zero_le _), empty, utf8_startLine]
    simp
  headers := rfl
  cookies := rfl
  method := rfl
  url := rfl
  protocol := rfl

section Composing

variable {r : Request} {method url : String} {cmds : List Request.Command}

theorem Composing.setHeader (h : Composing r method url cmds) (name value : String) :
    Composing (r.setHeader name value) method url (cmds ++ [.setHeader name value]) where
  sized := Message.sized_writeText h.sized _
  raw := by
    show (r.toMessage.writeText _).raw = _
    rw [Message.raw_writeText h.sized, h.raw, utf8_headerLine]
    simp [Request.Command.header?, crlfLines]
  headers := by
    show (r.toMessage.writeText _).headers.insert name value = _
    simp [Message.writeText, h.headers, Fields.insert, Request.Command.header?]
  cookies := by
    simp [Request.setHeader, Message.addHeader, Message.writeText, h.cookies, Request.Command.cookie?]
  method := h.method
  url := h.url
  protocol := h.protocol

theorem Composing.setCookie (h : Composing r method url cmds) (name value : String) :
    Composing (r.setCookie name value) method url (cmds ++ [.setCookie name value]) := by
  have header := h.setHeader "Cookie" (name ++ "=" ++ value)
  have lines : (cmds ++ [Request.Command.setCookie name value]).filterMap Request.Command.header? =
      (cmds ++ [Request.Command.setHeader "Cookie" (name ++ "=" ++ value)]).filterMap
        Request.Command.header? := by
    simp [Request.Command.header?]
  exact {
    sized := header.sized
    raw := lines ▸ header.raw
    headers := lines ▸ header.headers
    cookies := by
      show (r.setHeader _ _).cookies.insert name value = _
      rw [header.cookies]
      simp [Fields.insert, Request.Command.cookie?]
    method := header.method
    url := header.url
    protocol := header.protocol }

theorem Composing.perform (h : Composing r method url cmds) {c : Request.Command}
    (composable : c.Composable) : Composing (r.perform c).2 method url (cmds ++ [c]) := by
  cases c with
  | setHeader name value => exact h.setHeader name value
  | setCookie name value => exact h.setCookie name value
  | _ => exact composable.elim

theorem Composing.foldl (h : Composing r method url cmds) {more : List Request.Command}
    (composable : ∀ c ∈ more, c.Composable) :
    Composing (more.foldl (fun r c => (r.perform c).2) r) method url (cmds ++ more) := by
  induction more generalizing r cmds with
  | nil => simpa using h
  | cons c more ih =>
    rw [List.foldl_cons, ← List.singleton_append, ← List.append_assoc]
    exact ih (h.perform (composable c List.mem_cons_self)) fun c' mem =>
      composable c' (List.mem_cons_of_mem c mem)

/-- A composed request: the start line of `method` and `url`, the header lines of `cmds` and the
declared length, CR LF and the body; with the headers, cookies and body those lines set. -/
structure Composed (r : Request) (method url : String) (cmds : List Request.Command)
    (content : List UInt8) : Prop where
  raw : r.raw = startText method url ++ 13 :: 10 :: (crlfLines ((cmds.filterMap Request.Command.header?).map
    lineText ++ [lineText ("Content-Length", toString content.length)]) ++ 13 :: 10 :: content)
  headers : r.headers =
    ⟨cmds.filterMap Request.Command.header? ++ [("Content-Length", toString content.length)]⟩
  cookies : r.cookies = ⟨cmds.filterMap Request.Command.cookie?⟩
  body : r.body = content
  bodyLength : r.bodyLength = content.length
  method : r.method = method
  url : r.url = url
  protocol : r.protocol = http11

theorem Composing.setBody (h : Composing r method url cmds) (body : List UInt8) :
    Composed (r.setBody body) method url cmds body := by
  have declared := h.setHeader "Content-Length" (toString body.length)
  have sized := Message.sized_writeText declared.sized crlf
  have headerBytes : ((r.setHeader "Content-Length" (toString body.length)).toMessage.writeText crlf).raw =
      startText method url ++ 13 :: 10 :: crlfLines ((cmds.filterMap Request.Command.header?).map lineText ++
        [lineText ("Content-Length", toString body.length)]) ++ [13, 10] := by
    rw [Message.raw_writeText declared.sized, declared.raw, utf8_crlf]
    simp [Request.Command.header?]
  have length := ByteBuffer.length_bytes _ sized
  have all : (r.setBody body).raw =
      ((r.setHeader "Content-Length" (toString body.length)).toMessage.writeText crlf).raw ++ body :=
    ByteBuffer.bytes_write _ _ sized
  refine ⟨by rw [all, headerBytes]; simp, ?_, ?_, ?_, rfl, h.method, h.url, h.protocol⟩
  · show (r.setHeader "Content-Length" (toString body.length)).headers = _
    rw [declared.headers]
    simp [Request.Command.header?]
  · show (r.setHeader "Content-Length" (toString body.length)).cookies = _
    rw [declared.cookies]
    simp [Request.Command.cookie?]
  · have index : (r.setBody body).cursor.index =
        ((r.setHeader "Content-Length" (toString body.length)).toMessage.writeText crlf).raw.length := by
      rw [Message.raw, length]
      rfl
    have size : (r.setBody body).cursor.size = body.length := rfl
    show BodyCursor.body _ (r.setBody body).raw = body
    rw [BodyCursor.body, BodyCursor.stop, index, size, all]
    generalize ((r.setHeader "Content-Length" (toString body.length)).toMessage.writeText crlf).raw = head
    rw [← List.length_append, Nat.min_self, List.take_length, List.drop_left]

end Composing

theorem Request.composed_compose (r : Request) (method url : String) {cmds : List Request.Command}
    (composable : ∀ c ∈ cmds, c.Composable) (body : List UInt8) :
    Composed (r.compose method url cmds body) method url cmds body := by
  have composing := (composing_setBegin r method url).foldl composable
  rw [List.nil_append] at composing
  exact composing.setBody body

theorem Request.make_eq_compose (r : Request) (m : Method) (url : String) :
    r.make m url = r.compose m.name url [] [] := rfl

theorem Request.makeContent_eq_compose (r : Request) (m : Method) (url : String) (content : List UInt8)
    (contentType : String) :
    r.makeContent m url content contentType = r.compose m.name url
      (if contentType.isEmpty then [] else [.setHeader "Content-Type" contentType]) content := by
  unfold Request.makeContent
  split <;> rfl

theorem HeaderName.bytes {s : String} (h : HeaderName s) : utf8 s ≠ [] ∧ 58 ∉ utf8 s ∧ 13 ∉ utf8 s :=
  ⟨by simpa using h.1, not_mem_utf8 (c := ':') rfl (by decide) h.2.1,
    not_mem_utf8 (c := '\r') rfl (by decide) h.2.2⟩

theorem HeaderValue.bytes {s : String} (h : HeaderValue s) :
    (∀ b ∈ (utf8 s).head?, b ≠ 32 ∧ b ≠ 9) ∧ 13 ∉ utf8 s := by
  refine ⟨fun b mem => ⟨?_, ?_⟩, not_mem_utf8 (c := '\r') rfl (by decide) h.1⟩
  · rintro rfl
    exact not_mem_head?_utf8 (c := ' ') rfl (by decide) h.2.1 mem
  · rintro rfl
    exact not_mem_head?_utf8 (c := '\t') rfl (by decide) h.2.2 mem

theorem CookieToken.bytes {s : String} (h : CookieToken s) :
    utf8 s ≠ [] ∧ ∀ b ∈ utf8 s, b ≠ 32 ∧ b ≠ 61 ∧ b ≠ 59 := by
  refine ⟨by simpa using h.1, fun b mem => ⟨?_, ?_, ?_⟩⟩
  · rintro rfl
    exact not_mem_utf8 (c := ' ') rfl (by decide) h.2.1 mem
  · rintro rfl
    exact not_mem_utf8 (c := '=') rfl (by decide) h.2.2.1 mem
  · rintro rfl
    exact not_mem_utf8 (c := ';') rfl (by decide) h.2.2.2.1 mem

theorem CookieToken.headerValue {name value : String} (named : CookieToken name) (valued : CookieToken value)
    (untabbed : name.toList.head? ≠ some '\t') : HeaderValue (name ++ "=" ++ value) := by
  obtain ⟨c, cs, first⟩ := List.exists_cons_of_ne_nil (String.toList_eq_nil_iff.not.2 named.1)
  refine ⟨?_, ?_, ?_⟩
  · simp [String.toList_append, named.2.2.2.2, valued.2.2.2.2]
  · have : c ≠ ' ' := fun h => named.2.1 (by simp [first, h])
    simp [String.toList_append, first, this]
  · simpa [String.toList_append, first] using untabbed

theorem StartToken.bytes {s : String} (h : StartToken s) : 32 ∉ utf8 s ∧ 13 ∉ utf8 s :=
  ⟨not_mem_utf8 (c := ' ') rfl (by decide) h.1, not_mem_utf8 (c := '\r') rfl (by decide) h.2⟩

theorem digit_of_mem_toString {n : Nat} {c : Char} (mem : c ∈ (toString n).toList) : '0' ≤ c ∧ c ≤ '9' := by
  rw [Nat.toString_eq_repr, Nat.toList_repr] at mem
  have digit := Nat.isDigit_of_mem_toDigits (by decide) (by decide) mem
  simpa [Char.isDigit, Char.le_def] using digit

theorem headerValue_toString (n : Nat) : HeaderValue (toString n) := by
  refine ⟨fun mem => ?_, fun first => ?_, fun first => ?_⟩
  · have := digit_of_mem_toString mem
    simp [Char.le_def] at this
  · have := digit_of_mem_toString (List.mem_of_mem_head? first)
    simp [Char.le_def] at this
  · have := digit_of_mem_toString (List.mem_of_mem_head? first)
    simp [Char.le_def] at this

theorem Request.Command.header?_readable {c : Request.Command} (composable : c.Composable)
    {header : String × String} (writes : c.header? = some header) :
    HeaderName header.1 ∧ HeaderValue header.2 := by
  cases c with
  | setHeader name value =>
    cases writes
    exact ⟨composable.1, composable.2.1⟩
  | setCookie name value =>
    cases writes
    exact ⟨show HeaderName "Cookie" by decide, composable.1.headerValue composable.2.1 composable.2.2⟩
  | _ => exact composable.elim

theorem startToken_name (m : Method) : StartToken m.name := by
  cases m <;> decide

end Switchboard.Http
