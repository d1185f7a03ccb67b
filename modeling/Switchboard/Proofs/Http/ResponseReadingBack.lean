import Mathlib
import Switchboard.Proofs.Http.CookieAttributes
import Switchboard.Proofs.Http.ReadingBack

/-!
# Composed responses read back

A response a server composes reads back, at once or from any pieces, as its status line, its headers
in order and its body (`parseStartLine_statusText`), and its cookies as the pairs of each
`Set-Cookie` value in turn (`scanCookies_render`), a name that starts with a tab excepted.
-/

namespace Switchboard.Http

namespace Response.Command

def header? : Command → Option (String × String)
  | .setHeader name value => some (name, value)
  | .setCookie c => some ("Set-Cookie", c.render)
  | _ => none

def cookie? : Command → Option (String × String)
  | .setCookie c => some (c.name, c.value)
  | _ => none

def scanned : Command → List (String × String)
  | .setCookie c => c.pairs
  | _ => []

/-- A header or cookie whose line reads back: a header neither `Content-Length` nor `Set-Cookie`,
with a name and a value that read back; a cookie whose parts are cookie tokens, its name not
starting with a tab. -/
def Composable : Command → Prop
  | .setHeader name value => HeaderName name ∧ HeaderValue value ∧
      Ascii.eqFold name "Content-Length" = false ∧ Ascii.eqFold name "Set-Cookie" = false
  | .setCookie c => c.Tokens ∧ c.name.toList.head? ≠ some '\t'
  | _ => False

instance : DecidablePred Composable
  | .setHeader _ _ => inferInstanceAs (Decidable (_ ∧ _ ∧ _ ∧ _))
  | .setCookie _ => inferInstanceAs (Decidable (_ ∧ _))
  | .receiveHeader _ | .receiveBody _ | .clear | .setBegin _ _ | .setBody _ | .setBodyLength _
  | .makeOk | .makeError _ _ | .makeGet _ _ | .makeOptions | .makeTrace _ => isFalse id

end Response.Command

/-- A response composed by a server: its status line, fields set one after another, then its
body. -/
def Response.compose (r : Response) (status : Nat) (protocol : String) (cmds : List Response.Command)
    (body : List UInt8) : Response :=
  (cmds.foldl (fun r c => (r.perform c).2) (r.setBeginWith status protocol)).setBody body

def statusText (status : Nat) (protocol : String) : List UInt8 :=
  utf8 protocol ++ 32 :: (utf8 (toString status) ++ 32 :: utf8 (reasonPhrase status))

theorem utf8_statusLine (status : Nat) (protocol : String) :
    utf8 (protocol ++ " " ++ toString status ++ " " ++ reasonPhrase status ++ crlf) =
      statusText status protocol ++ [13, 10] := by
  simp [statusText, utf8_crlf, utf8_eq_map (s := " ")]

namespace Message

variable {m : Message}

theorem sized_addHeader (sized : m.cache.length ≤ m.cache.capacity) (name value : String) :
    (m.addHeader name value).cache.length ≤ (m.addHeader name value).cache.capacity :=
  sized_writeText sized _

theorem raw_addHeader (sized : m.cache.length ≤ m.cache.capacity) (name value : String) :
    (m.addHeader name value).raw = m.raw ++ lineText (name, value) ++ [13, 10] := by
  show (m.writeText _).raw = _
  rw [raw_writeText sized, utf8_headerLine, List.append_assoc]

theorem headers_addHeader (name value : String) :
    (m.addHeader name value).headers = m.headers.insert name value := rfl

theorem cookies_addHeader (name value : String) : (m.addHeader name value).cookies = m.cookies := rfl

theorem setBody_spec (sized : m.cache.length ≤ m.cache.capacity) (body : List UInt8) :
    (m.setBody body).raw = m.raw ++ lineText ("Content-Length", toString body.length) ++ [13, 10] ++
        [13, 10] ++ body ∧
      (m.setBody body).headers = m.headers.insert "Content-Length" (toString body.length) ∧
      (m.setBody body).cookies = m.cookies ∧ (m.setBody body).body = body ∧
      (m.setBody body).bodyLength = body.length := by
  have declared := sized_addHeader sized "Content-Length" (toString body.length)
  have ended := sized_writeText declared crlf
  have head : ((m.addHeader "Content-Length" (toString body.length)).writeText crlf).raw =
      m.raw ++ lineText ("Content-Length", toString body.length) ++ [13, 10] ++ [13, 10] := by
    rw [raw_writeText declared, raw_addHeader sized, utf8_crlf]
  have all : (m.setBody body).raw = ((m.addHeader "Content-Length" (toString body.length)).writeText crlf).raw ++ body :=
    ByteBuffer.bytes_write _ _ ended
  refine ⟨by rw [all, head], rfl, rfl, ?_, rfl⟩
  have index : (m.setBody body).cursor.index =
      ((m.addHeader "Content-Length" (toString body.length)).writeText crlf).raw.length := by
    rw [raw, ByteBuffer.length_bytes _ ended]
    rfl
  have size : (m.setBody body).cursor.size = body.length := rfl
  show BodyCursor.body _ (m.setBody body).raw = body
  rw [BodyCursor.body, BodyCursor.stop, index, size, all]
  generalize ((m.addHeader "Content-Length" (toString body.length)).writeText crlf).raw = written
  rw [← List.length_append, Nat.min_self, List.take_length, List.drop_left]

end Message

/-- A response being composed: the status line of `status` and `protocol`, then the header lines
of `cmds`, with the headers and cookies they set. -/
structure Response.Composing (r : Response) (status : Nat) (protocol : String)
    (cmds : List Response.Command) : Prop where
  sized : r.cache.length ≤ r.cache.capacity
  raw : r.raw = statusText status protocol ++ 13 :: 10 ::
    crlfLines ((cmds.filterMap Response.Command.header?).map lineText)
  headers : r.headers = ⟨cmds.filterMap Response.Command.header?⟩
  cookies : r.cookies = ⟨cmds.filterMap Response.Command.cookie?⟩
  phrase : r.phrase = reasonPhrase status
  status : r.status = status
  protocol : r.protocol = protocol

theorem Response.composing_setBeginWith (r : Response) (status : Nat) (protocol : String) :
    Response.Composing (r.setBeginWith status protocol) status protocol [] where
  sized := Message.sized_writeText (Nat.zero_le _) _
  raw := by
    have empty : r.toMessage.clear.raw = [] := by
      simp [Message.clear, Message.raw, ByteBuffer.clear, ByteBuffer.bytes]
    show (r.toMessage.clear.writeText _).raw = _
    rw [Message.raw_writeText (Nat.zero_le _), empty, utf8_statusLine]
    simp
  headers := rfl
  cookies := rfl
  phrase := rfl
  status := rfl
  protocol := rfl

namespace Response.Composing

variable {r : Response} {status : Nat} {protocol : String} {cmds : List Response.Command}

theorem setHeader (h : Response.Composing r status protocol cmds) (name value : String) :
    Response.Composing (r.setHeader name value) status protocol (cmds ++ [.setHeader name value]) where
  sized := Message.sized_addHeader h.sized name value
  raw := by
    show (r.toMessage.addHeader name value).raw = _
    rw [Message.raw_addHeader h.sized, h.raw]
    simp [Response.Command.header?, crlfLines]
  headers := by
    show (r.toMessage.addHeader name value).headers = _
    rw [Message.headers_addHeader, h.headers]
    simp [Fields.insert, Response.Command.header?]
  cookies := by
    show (r.toMessage.addHeader name value).cookies = _
    rw [Message.cookies_addHeader, h.cookies]
    simp [Response.Command.cookie?]
  phrase := h.phrase
  status := h.status
  protocol := h.protocol

theorem setCookie (h : Response.Composing r status protocol cmds) (c : SetCookie) :
    Response.Composing (r.setCookie c) status protocol (cmds ++ [.setCookie c]) := by
  have header := h.setHeader "Set-Cookie" c.render
  have lines : (cmds ++ [Response.Command.setCookie c]).filterMap Response.Command.header? =
      (cmds ++ [Response.Command.setHeader "Set-Cookie" c.render]).filterMap Response.Command.header? := by
    simp [Response.Command.header?]
  exact {
    sized := header.sized
    raw := lines ▸ header.raw
    headers := lines ▸ header.headers
    cookies := by
      show (r.setHeader _ _).cookies.insert c.name c.value = _
      rw [header.cookies]
      simp [Fields.insert, Response.Command.cookie?]
    phrase := header.phrase
    status := header.status
    protocol := header.protocol }

theorem perform (h : Response.Composing r status protocol cmds) {c : Response.Command}
    (composable : c.Composable) : Response.Composing (r.perform c).2 status protocol (cmds ++ [c]) := by
  cases c with
  | setHeader name value => exact h.setHeader name value
  | setCookie c => exact h.setCookie c
  | _ => exact composable.elim

theorem foldl (h : Response.Composing r status protocol cmds) {more : List Response.Command}
    (composable : ∀ c ∈ more, c.Composable) :
    Response.Composing (more.foldl (fun r c => (r.perform c).2) r) status protocol (cmds ++ more) := by
  induction more generalizing r cmds with
  | nil => simpa using h
  | cons c more ih =>
    rw [List.foldl_cons, ← List.singleton_append, ← List.append_assoc]
    exact ih (h.perform (composable c List.mem_cons_self)) fun c' mem =>
      composable c' (List.mem_cons_of_mem c mem)

end Response.Composing

def Response.headerLines (cmds : List Response.Command) (len : Nat) : List (List UInt8) :=
  (cmds.filterMap Response.Command.header?).map lineText ++ [lineText ("Content-Length", toString len)]

/-- A composed response: the status line, the header lines of `cmds` and the declared length, CR LF
and the body; with the headers, cookies and body those lines set. -/
structure Response.Composed (r : Response) (status : Nat) (protocol : String) (cmds : List Response.Command)
    (content : List UInt8) : Prop where
  raw : r.raw = statusText status protocol ++ 13 :: 10 ::
    (crlfLines (Response.headerLines cmds content.length) ++ 13 :: 10 :: content)
  headers : r.headers =
    ⟨cmds.filterMap Response.Command.header? ++ [("Content-Length", toString content.length)]⟩
  cookies : r.cookies = ⟨cmds.filterMap Response.Command.cookie?⟩
  body : r.body = content
  bodyLength : r.bodyLength = content.length
  phrase : r.phrase = reasonPhrase status
  status : r.status = status
  protocol : r.protocol = protocol

theorem Response.Composing.setBody {r : Response} {status : Nat} {protocol : String}
    {cmds : List Response.Command} (h : Response.Composing r status protocol cmds) (body : List UInt8) :
    Response.Composed (r.setBody body) status protocol cmds body := by
  obtain ⟨raw, headers, cookies, content, length⟩ := Message.setBody_spec h.sized body
  refine ⟨?_, ?_, cookies.trans h.cookies, content, length, h.phrase, h.status, h.protocol⟩
  · show (r.toMessage.setBody body).raw = _
    rw [raw, h.raw]
    simp [Response.headerLines]
  · show (r.toMessage.setBody body).headers = _
    rw [headers, h.headers]
    simp [Fields.insert]

theorem Response.composed_compose (r : Response) (status : Nat) (protocol : String)
    {cmds : List Response.Command} (composable : ∀ c ∈ cmds, c.Composable) (body : List UInt8) :
    Response.Composed (r.compose status protocol cmds body) status protocol cmds body := by
  have composing := (Response.composing_setBeginWith r status protocol).foldl composable
  rw [List.nil_append] at composing
  exact composing.setBody body

theorem Message.receive_read {α : Type} {raw : List UInt8} {t : Nat} (found : findTerminator raw 0 = some t)
    {cookieHeader : String} {read : StartLine → Except HttpError α} {line : StartLine} {a : α}
    (start : parseStartLine (raw.take (t + 2)) = .ok line) (reads : read line = .ok a) {scan : HeaderScan}
    {len : Nat} (lines : parseHeaderLines (raw.take (t + 2)) line.next cookieHeader = (.ok (some len), scan))
    (whole : t + 4 + len ≤ raw.length) :
    ∃ m, ({} : Message).receiveHeader raw cookieHeader read = (some a, m) ∧ ∀ bodyless,
      (m.receiveBody [] bodyless).2.state = .complete ∧ (m.receiveBody [] bodyless).2.headers = scan.headers ∧
      (m.receiveBody [] bodyless).2.cookies = scan.cookies ∧
      (m.receiveBody [] bodyless).2.body = (raw.drop (t + 4)).take len ∧
      (m.receiveBody [] bodyless).2.bodyLength = len ∧ (m.receiveBody [] bodyless).2.cursor.lengthGiven = true := by
  have bytes : (ByteBuffer.empty.write raw).2.bytes = raw := by
    simpa [ByteBuffer.empty, ByteBuffer.bytes] using ByteBuffer.bytes_write ByteBuffer.empty raw (Nat.le_refl 0)
  have size : (ByteBuffer.empty.write raw).2.length = raw.length := by
    simpa [ByteBuffer.empty] using ByteBuffer.length_write ByteBuffer.empty raw
  have meaning : (parseStartLine (raw.take (t + 2)) >>= fun line => (read line).map fun a => (line, a)) =
      .ok (line, a) := by
    rw [start]
    show (read line).map _ = _
    rw [reads]
    rfl
  unfold Message.receiveHeader
  simp only [bytes, found, meaning, lines, size]
  refine ⟨_, rfl, fun bodyless => ?_⟩
  have reaches : len ≤ raw.length - (t + 4) + ([] : List UInt8).length := by simp; omega
  have unchanged : (ByteBuffer.empty.write raw).2.write [] = (0, (ByteBuffer.empty.write raw).2) := rfl
  simp only [Message.receiveBody, BodyCursor.feed, BodyCursor.resetLength, BodyCursor.setContentLength, if_true,
    reaches, unchanged]
  simp [Message.body, Message.raw, Message.bodyLength, BodyCursor.body, BodyCursor.stop, bytes]
  rw [Nat.min_eq_left whole, List.drop_take, Nat.add_sub_cancel_left]

theorem Response.ofBytes_of_read {raw : List UInt8} {t : Nat} (found : findTerminator raw 0 = some t)
    {line : StartLine} (start : parseStartLine (raw.take (t + 2)) = .ok line) {status : Nat}
    (read : readStatus line = .ok status) {scan : HeaderScan} {len : Nat}
    (lines : parseHeaderLines (raw.take (t + 2)) line.next "Set-Cookie" = (.ok (some len), scan))
    (whole : t + 4 + len ≤ raw.length) :
    (Response.ofBytes raw).state = .complete ∧ (Response.ofBytes raw).status = status ∧
      (Response.ofBytes raw).phrase = line.third ∧ (Response.ofBytes raw).protocol = line.first ∧
      (Response.ofBytes raw).headers = scan.headers ∧ (Response.ofBytes raw).cookies = scan.cookies ∧
      (Response.ofBytes raw).body = (raw.drop (t + 4)).take len ∧ (Response.ofBytes raw).bodyLength = len ∧
      (Response.ofBytes raw).cursor.lengthGiven = true := by
  have meaning : (readStatus line).map (line, ·) = .ok (line, status) := by
    rw [read]
    rfl
  obtain ⟨m, header, body⟩ :=
    @Message.receive_read _ raw t found "Set-Cookie" (fun line => (readStatus line).map (line, ·)) line
      (line, status) start meaning scan len lines whole
  have fresh : ({} : Response).toMessage = {} := rfl
  have once : Response.ofBytes raw =
      { toMessage := (m.receiveBody [] ({ status } : Response).bodyless).2,
        status, phrase := line.third, protocol := line.first } := by
    unfold Response.ofBytes Response.receiveHeader
    rw [fresh, header]
    rfl
  obtain ⟨complete, headers, cookies, content, length, given⟩ := body ({ status } : Response).bodyless
  rw [once]
  exact ⟨complete, rfl, rfl, rfl, headers, cookies, content, length, given⟩

theorem startToken_toString (n : Nat) : StartToken (toString n) := by
  refine ⟨fun mem => ?_, fun mem => ?_⟩ <;>
  · have := digit_of_mem_toString mem
    simp [Char.le_def] at this

theorem not_mem_reasonPhrase (status : Nat) : '\r' ∉ (reasonPhrase status).toList := by
  unfold reasonPhrase
  split <;> decide

theorem not_mem_statusText {protocol : String} (p : StartToken protocol) (status : Nat) :
    13 ∉ statusText status protocol := by
  simp only [statusText, List.mem_append, List.mem_cons, not_or]
  exact ⟨p.bytes.2, by decide, (startToken_toString status).bytes.2, by decide,
    not_mem_utf8 (c := '\r') rfl (by decide) (not_mem_reasonPhrase status)⟩

/-- A status line reads as its protocol, its decimal status and its reason phrase. -/
theorem parseStartLine_statusText {protocol : String} (p : StartToken protocol) (status : Nat) (rest : List UInt8) :
    parseStartLine (statusText status protocol ++ 13 :: 10 :: rest) =
      .ok ⟨protocol, toString status, reasonPhrase status, (statusText status protocol).length + 2⟩ := by
  have phrase : 13 ∉ utf8 (reasonPhrase status) :=
    not_mem_utf8 (c := '\r') rfl (by decide) (not_mem_reasonPhrase status)
  simp only [statusText, List.append_assoc, List.cons_append]
  rw [parseStartLine_append rest p.bytes.1 (startToken_toString status).bytes.1 phrase, Utf8.lenient_utf8,
    Utf8.lenient_utf8, Utf8.lenient_utf8]
  simp only [List.length_append, List.length_cons]
  congr 2
  omega

/-- The decimal text of a status below 65536 reads as that status. -/
theorem readStatus_toString {line : StartLine} {status : Nat} (second : line.second = toString status)
    (fits : status < 65536) : readStatus line = .ok status := by
  have digits : (toString status).all Char.isDigit = true := by
    rw [String.all_bool_eq, List.all_eq_true]
    intro c mem
    have := digit_of_mem_toString mem
    simpa [Char.isDigit, Char.le_def] using this
  have value : (toString status).foldl (fun acc c => acc * 10 + (c.toNat - 48)) 0 = status := by
    rw [String.foldl_eq_foldl_toList]
    conv_rhs => rw [← Nat.ofDigitChars_ten_toDigits (n := status)]
    rw [Nat.ofDigitChars_eq_foldl, Nat.toString_eq_repr, Nat.toList_repr]
    apply List.foldl_ext
    intro a c _
    show a * 10 + (c.toNat - 48) = 10 * a + (c.toNat - 48)
    omega
  have nonempty : (toString status).isEmpty = false := String.isEmpty_eq_false_iff.2 (cookieToken_toString status).1
  unfold readStatus
  simp only [second, nonempty, digits, value]
  simp [Nat.le_of_lt_succ fits]

theorem HeaderScan.read_setCookie (acc : HeaderScan) {c : SetCookie} (tokens : c.Tokens) :
    acc.read "Set-Cookie" "Set-Cookie" (utf8 c.render) = .ok { acc with cookies := acc.cookies.insertAll c.pairs } := by
  rw [HeaderScan.read, if_neg (by decide), if_pos (by decide), scanCookies_render tokens]

theorem HeaderScan.read_contentLength (acc : HeaderScan) (cookieHeader : String) {len : Nat} (fits : len ≤ wordMax) :
    acc.read cookieHeader "Content-Length" (utf8 (toString len)) = .ok { acc with contentLength := some len } := by
  rw [HeaderScan.read, if_pos (by decide), parseContentLength_toString fits]
  rfl

theorem Response.readHeaderLines_composed {cmds : List Response.Command} (composable : ∀ c ∈ cmds, c.Composable)
    (offset : Nat) (more : List UInt8) (acc : HeaderScan) :
    readHeaderLines "Set-Cookie" offset
        (crlfLines ((cmds.filterMap Response.Command.header?).map lineText) ++ more) acc =
      readHeaderLines "Set-Cookie"
        (offset + (crlfLines ((cmds.filterMap Response.Command.header?).map lineText)).length) more
        { acc with headers := acc.headers.insertAll (cmds.filterMap Response.Command.header?),
                   cookies := acc.cookies.insertAll (cmds.flatMap Response.Command.scanned) } := by
  induction cmds generalizing offset acc with
  | nil => simp [Fields.insertAll]
  | cons c cmds ih =>
    have later : ∀ c' ∈ cmds, c'.Composable := fun c' mem => composable c' (List.mem_cons_of_mem c mem)
    cases c with
    | setHeader name value =>
      obtain ⟨named, valued, notLength, notCookie⟩ := composable _ List.mem_cons_self
      have read : acc.read "Set-Cookie" name (utf8 value) = .ok acc := by
        simp [HeaderScan.read, notLength, notCookie]
      simp only [List.filterMap_cons, Response.Command.header?, List.flatMap_cons, Response.Command.scanned,
        List.map_cons, crlfLines_cons, List.append_assoc, List.cons_append, List.nil_append]
      rw [readHeaderLines_lineText _ acc named valued read, ih later]
      congr 1
      · simp only [List.length_append, List.length_cons]
        omega
      · simp [Fields.insert, Fields.insertAll]
    | setCookie c =>
      obtain ⟨tokens, untabbed⟩ := composable _ List.mem_cons_self
      simp only [List.filterMap_cons, Response.Command.header?, List.flatMap_cons, Response.Command.scanned,
        List.map_cons, crlfLines_cons, List.append_assoc, List.cons_append]
      rw [readHeaderLines_lineText _ acc (by decide) (headerValue_render tokens untabbed)
        (HeaderScan.read_setCookie acc tokens), ih later]
      congr 1
      · simp only [List.length_append, List.length_cons]
        omega
      · simp [Fields.insert, Fields.insertAll]
    | _ => exact (composable _ List.mem_cons_self).elim

theorem Response.parseHeaderLines_composed {cmds : List Response.Command} (composable : ∀ c ∈ cmds, c.Composable)
    {len : Nat} (fits : len ≤ wordMax) (start : List UInt8) :
    parseHeaderLines (start ++ crlfLines (Response.headerLines cmds len)) start.length "Set-Cookie" =
      (.ok (some len), { headers := ⟨cmds.filterMap Response.Command.header? ++ [("Content-Length", toString len)]⟩,
                         cookies := ⟨cmds.flatMap Response.Command.scanned⟩, contentLength := some len }) := by
  unfold parseHeaderLines Response.headerLines
  rw [List.drop_left, crlfLines_append, Response.readHeaderLines_composed composable, crlfLines_cons, crlfLines_nil,
    readHeaderLines_lineText [] _ (show HeaderName "Content-Length" by decide) (headerValue_toString len)
      (HeaderScan.read_contentLength _ _ fits), readHeaderLines_nil]
  simp [Fields.insert, Fields.insertAll, Except.map]

theorem Response.Command.header?_readable {c : Response.Command} (composable : c.Composable)
    {header : String × String} (writes : c.header? = some header) : HeaderName header.1 ∧ HeaderValue header.2 := by
  cases c with
  | setHeader name value =>
    cases writes
    exact ⟨composable.1, composable.2.1⟩
  | setCookie c =>
    cases writes
    exact ⟨show HeaderName "Set-Cookie" by decide, headerValue_render composable.1 composable.2⟩
  | _ => exact composable.elim

theorem Response.readable_headerLines {cmds : List Response.Command} (composable : ∀ c ∈ cmds, c.Composable)
    (len : Nat) : ∀ line ∈ Response.headerLines cmds len, line ≠ [] ∧ 13 ∉ line := by
  intro line mem
  simp only [Response.headerLines, List.mem_append, List.mem_map, List.mem_filterMap, List.mem_singleton] at mem
  rcases mem with ⟨header, ⟨c, mem, writes⟩, rfl⟩ | rfl
  · obtain ⟨named, valued⟩ := Response.Command.header?_readable (composable c mem) writes
    exact ⟨lineText_ne_nil _, not_mem_lineText named valued.bytes.2⟩
  · exact ⟨lineText_ne_nil _,
      not_mem_lineText (show HeaderName "Content-Length" by decide) (headerValue_toString len).bytes.2⟩

theorem take_headerBlock (start block content : List UInt8) :
    (start ++ 13 :: 10 :: (block ++ 13 :: 10 :: content)).take (start.length + block.length + 2) =
      start ++ 13 :: 10 :: block := by
  have regroup : start ++ 13 :: 10 :: (block ++ 13 :: 10 :: content) =
      (start ++ 13 :: 10 :: block) ++ 13 :: 10 :: content := by simp
  rw [regroup, List.take_left' (by simp; omega)]

theorem drop_headerBlock (start block content : List UInt8) :
    (start ++ 13 :: 10 :: (block ++ 13 :: 10 :: content)).drop (start.length + block.length + 4) = content := by
  have regroup : start ++ 13 :: 10 :: (block ++ 13 :: 10 :: content) =
      (start ++ 13 :: 10 :: block ++ [13, 10]) ++ content := by simp
  rw [regroup, List.drop_left' (by simp; omega)]

/-- A received response holding what was composed: complete, with its status, that status's reason
phrase, its protocol, headers and body, and the cookies `cookies`. -/
structure Response.ReadsBack (received composed : Response) (cookies : Cookies) : Prop where
  complete : received.state = .complete
  status : received.status = composed.status
  phrase : received.phrase = reasonPhrase composed.status
  protocol : received.protocol = composed.protocol
  headers : received.headers = composed.headers
  cookies : received.cookies = cookies
  body : received.body = composed.body
  bodyLength : received.bodyLength = composed.bodyLength

theorem Response.ReadsBack.pieces {raw : List UInt8} {c : Response} {cookies : Cookies} {t : Nat}
    (once : Response.ReadsBack (Response.ofBytes raw) c cookies) (found : findTerminator raw 0 = some t)
    (whole : t + 4 + c.bodyLength = raw.length) (given : (Response.ofBytes raw).cursor.lengthGiven = true)
    {cs : List (List UInt8)} (pieces : cs.flatten = raw) :
    Response.ReadsBack (Response.receiver.receiveChunks {} cs) c cookies := by
  obtain ⟨-, -, split⟩ := Response.receiveChunks_take cs cs.length
  rw [List.take_length, pieces] at split
  obtain ⟨done, same⟩ := split t found (by rw [once.complete]; decide) (.inl given)
  have complete := done.2 (by rw [once.bodyLength]; omega)
  obtain ⟨ss, sph, sp, sh, sc, sb, sl⟩ := same complete
  exact ⟨complete, ss.trans once.status, sph.trans once.phrase, sp.trans once.protocol, sh.trans once.headers,
    sc.trans once.cookies, sb.trans once.body, sl.trans once.bodyLength⟩

namespace Response.Composed

variable {c : Response} {status : Nat} {protocol : String} {cmds : List Response.Command} {content : List UInt8}

theorem headerBlock (h : Response.Composed c status protocol cmds content) (p : StartToken protocol)
    (readable : ∀ line ∈ Response.headerLines cmds content.length, line ≠ [] ∧ 13 ∉ line) :
    findTerminator c.raw 0 = some ((statusText status protocol).length +
        (crlfLines (Response.headerLines cmds content.length)).length) ∧
      c.raw.take ((statusText status protocol).length +
          (crlfLines (Response.headerLines cmds content.length)).length + 2) =
        statusText status protocol ++ 13 :: 10 :: crlfLines (Response.headerLines cmds content.length) := by
  refine ⟨?_, ?_⟩
  · rw [findTerminator, List.drop_zero, h.raw, findTerminator_go_lines (not_mem_statusText p status) readable,
      Nat.zero_add]
  · rw [h.raw, take_headerBlock]

theorem readsBack_of_lines (h : Response.Composed c status protocol cmds content) (p : StartToken protocol)
    (fits : status < 65536) (readable : ∀ line ∈ Response.headerLines cmds content.length, line ≠ [] ∧ 13 ∉ line)
    {scan : HeaderScan}
    (lines : parseHeaderLines (statusText status protocol ++ [13, 10] ++ crlfLines (Response.headerLines cmds
      content.length)) ((statusText status protocol).length + 2) "Set-Cookie" = (.ok (some content.length), scan)) :
    ∃ t, findTerminator c.raw 0 = some t ∧ t + 4 + content.length = c.raw.length ∧
      (Response.ofBytes c.raw).cursor.lengthGiven = true ∧
      Response.ReadsBack (Response.ofBytes c.raw) { c with headers := scan.headers } scan.cookies := by
  obtain ⟨found, taken⟩ := h.headerBlock p readable
  have start := parseStartLine_statusText p status (crlfLines (Response.headerLines cmds content.length))
  simp only [List.append_assoc, List.cons_append, List.nil_append] at lines
  rw [← taken] at start lines
  have whole : (statusText status protocol).length + (crlfLines (Response.headerLines cmds content.length)).length +
      4 + content.length = c.raw.length := by
    rw [h.raw]
    simp only [List.length_append, List.length_cons]
    omega
  have tail := drop_headerBlock (statusText status protocol) (crlfLines (Response.headerLines cmds content.length))
    content
  rw [← h.raw] at tail
  obtain ⟨complete, rs, rph, rp, rh, rc, rb, rl, given⟩ :=
    Response.ofBytes_of_read found start (readStatus_toString rfl fits) lines whole.le
  refine ⟨_, found, whole, given, ⟨complete, ?_, ?_, ?_, rh, rc, ?_, ?_⟩⟩
  · rw [rs, h.status]
  · rw [rph, h.status]
  · rw [rp, h.protocol]
  · show _ = c.body
    rw [rb, tail, h.body, List.take_length]
  · show _ = c.bodyLength
    rw [rl, h.bodyLength]

theorem readsBack (h : Response.Composed c status protocol cmds content) (p : StartToken protocol)
    (fits : status < 65536) (composable : ∀ x ∈ cmds, x.Composable) (short : content.length ≤ wordMax) :
    ∃ t, findTerminator c.raw 0 = some t ∧ t + 4 + content.length = c.raw.length ∧
      (Response.ofBytes c.raw).cursor.lengthGiven = true ∧
      Response.ReadsBack (Response.ofBytes c.raw) c ⟨cmds.flatMap Response.Command.scanned⟩ := by
  have lines := Response.parseHeaderLines_composed composable short (statusText status protocol ++ [13, 10])
  simp only [List.length_append, List.length_cons, List.length_nil] at lines
  have same : { c with headers := ⟨cmds.filterMap Response.Command.header? ++
      [("Content-Length", toString content.length)]⟩ } = c := by
    rw [← h.headers]
  simpa only [same] using h.readsBack_of_lines p fits (Response.readable_headerLines composable _) lines

theorem readsBack_pieces (h : Response.Composed c status protocol cmds content) (p : StartToken protocol)
    (fits : status < 65536) (composable : ∀ x ∈ cmds, x.Composable) (short : content.length ≤ wordMax)
    {cs : List (List UInt8)} (pieces : cs.flatten = c.raw) :
    Response.ReadsBack (Response.receiver.receiveChunks {} cs) c ⟨cmds.flatMap Response.Command.scanned⟩ := by
  obtain ⟨t, found, whole, given, once⟩ := h.readsBack p fits composable short
  exact once.pieces found (by rw [h.bodyLength]; exact whole) given pieces

end Response.Composed

theorem Response.readsBack_compose (r : Response) {status : Nat} {protocol : String} {cmds : List Response.Command}
    {body : List UInt8} (p : StartToken protocol) (fits : status < 65536) (composable : ∀ c ∈ cmds, c.Composable)
    (short : body.length ≤ wordMax) {cs : List (List UInt8)}
    (pieces : cs.flatten = (r.compose status protocol cmds body).raw) :
    Response.ReadsBack (Response.receiver.receiveChunks {} cs) (r.compose status protocol cmds body)
      ⟨cmds.flatMap Response.Command.scanned⟩ :=
  (r.composed_compose status protocol composable body).readsBack_pieces p fits composable short pieces

theorem Response.Command.get?_scanned {pre post : List Response.Command} {c : SetCookie}
    (unnamed : ∀ q ∈ pre.flatMap Response.Command.scanned, q.1 ≠ c.name) :
    (⟨(pre ++ .setCookie c :: post).flatMap Response.Command.scanned⟩ : Cookies).get? c.name = some c.value := by
  have before : (pre.flatMap Response.Command.scanned).find? (fun q => Fields.nameMatches false q.1 c.name) = none := by
    rw [List.find?_eq_none]
    intro q mem
    simpa [Fields.nameMatches] using unnamed q mem
  have first : c.pairs = (c.name, c.value) :: c.pairs.tail := rfl
  rw [Fields.get?, List.flatMap_append, List.find?_append, before, Option.none_or, List.flatMap_cons,
    Response.Command.scanned, first, List.cons_append, List.find?_cons_of_pos (by simp [Fields.nameMatches])]
  rfl

theorem Response.makeOk_eq_compose (r : Response) : r.makeOk = r.compose 200 http11 [] [] := rfl

theorem Response.makeError_eq_compose (r : Response) (status : Nat) (content : String) :
    r.makeError status content =
      r.compose status http11 [.setHeader "Content-Type" "text/plain; charset=UTF-8"] (utf8 content) := rfl

theorem Response.makeGet_eq_compose (r : Response) (content : List UInt8) (contentType : String) :
    r.makeGet content contentType = r.compose 200 http11
      (if contentType.isEmpty then [] else [.setHeader "Content-Type" contentType]) content := by
  unfold Response.makeGet
  split <;> rfl

theorem Response.makeOptions_eq_compose (r : Response) :
    r.makeOptions = r.compose 200 http11 [.setHeader "Allow" allowedMethods] [] := rfl

theorem Response.makeTrace_eq_compose (r : Response) (request : List UInt8) :
    r.makeTrace request = r.compose 200 http11 [.setHeader "Content-Type" "message/http"] request := rfl

/-- A response a server composes reads back whole from any pieces of its bytes: set its status line,
then headers and cookies in any order, then its body; or make it at once. A fresh response fed those
pieces completes with the same status, that status's reason phrase, the same protocol, the headers
in order and the body. Its cookies are the pairs of its `Set-Cookie` values in turn, so a cookie is
found under its name unless a pair of that name came before it. -/
theorem composed_responses_read_back_in_any_pieces :
    (∀ (r : Response) (status : Nat) (protocol : String) (cmds : List Response.Command) (body : List UInt8)
        (cs : List (List UInt8)), status < 65536 → StartToken protocol → (∀ c ∈ cmds, c.Composable) →
        body.length ≤ wordMax → cs.flatten = (r.compose status protocol cmds body).raw →
        Response.ReadsBack (Response.receiver.receiveChunks {} cs) (r.compose status protocol cmds body)
            ⟨cmds.flatMap Response.Command.scanned⟩ ∧
          ∀ pre c post, cmds = pre ++ .setCookie c :: post →
            (∀ q ∈ pre.flatMap Response.Command.scanned, q.1 ≠ c.name) →
            (Response.receiver.receiveChunks {} cs).cookies.get? c.name = some c.value) ∧
    (∀ (r : Response) (cs : List (List UInt8)), cs.flatten = r.makeOk.raw →
        Response.ReadsBack (Response.receiver.receiveChunks {} cs) r.makeOk ⟨[]⟩) ∧
    (∀ (r : Response) (status : Nat) (content : String) (cs : List (List UInt8)), status < 65536 →
        (utf8 content).length ≤ wordMax → cs.flatten = (r.makeError status content).raw →
        Response.ReadsBack (Response.receiver.receiveChunks {} cs) (r.makeError status content) ⟨[]⟩) ∧
    (∀ (r : Response) (content : List UInt8) (contentType : String) (cs : List (List UInt8)),
        (contentType = "" ∨ HeaderValue contentType) → content.length ≤ wordMax →
        cs.flatten = (r.makeGet content contentType).raw →
        Response.ReadsBack (Response.receiver.receiveChunks {} cs) (r.makeGet content contentType) ⟨[]⟩) ∧
    (∀ (r : Response) (cs : List (List UInt8)), cs.flatten = r.makeOptions.raw →
        Response.ReadsBack (Response.receiver.receiveChunks {} cs) r.makeOptions ⟨[]⟩) ∧
    (∀ (r : Response) (request : List UInt8) (cs : List (List UInt8)), request.length ≤ wordMax →
        cs.flatten = (r.makeTrace request).raw →
        Response.ReadsBack (Response.receiver.receiveChunks {} cs) (r.makeTrace request) ⟨[]⟩) := by
  have http : StartToken http11 := by decide
  refine ⟨fun r status protocol cmds body cs fits p composable short pieces => ?_, fun r cs pieces => ?_,
    fun r status content cs fits short pieces => ?_, fun r content contentType cs typed short pieces => ?_,
    fun r cs pieces => ?_, fun r request cs short pieces => ?_⟩
  · have back := r.readsBack_compose p fits composable short pieces
    refine ⟨back, fun pre c post split unnamed => ?_⟩
    rw [back.cookies, split]
    exact Response.Command.get?_scanned unnamed
  · rw [Response.makeOk_eq_compose] at pieces ⊢
    exact r.readsBack_compose http (by decide) (by simp) (Nat.zero_le _) pieces
  · rw [Response.makeError_eq_compose] at pieces ⊢
    exact r.readsBack_compose http fits (by decide) short pieces
  · rw [Response.makeGet_eq_compose] at pieces ⊢
    by_cases empty : contentType.isEmpty = true
    · rw [if_pos empty] at pieces ⊢
      exact r.readsBack_compose http (by decide) (by simp) short pieces
    · rw [if_neg empty] at pieces ⊢
      have valued : HeaderValue contentType := typed.resolve_left (by simpa using empty)
      refine r.readsBack_compose http (by decide) ?_ short pieces
      simp only [List.mem_singleton, forall_eq]
      exact ⟨by decide, valued, by decide, by decide⟩
  · rw [Response.makeOptions_eq_compose] at pieces ⊢
    exact r.readsBack_compose http (by decide) (by decide) (Nat.zero_le _) pieces
  · rw [Response.makeTrace_eq_compose] at pieces ⊢
    exact r.readsBack_compose http (by decide) (by decide) short pieces

/-- A 404 with a server header and a cookie with a path, received in two pieces split inside its
status line: it reads back, and its cookie is found under its name. -/
theorem not_found_with_cookie_reads_back_in_two_pieces :
    Response.ReadsBack (Response.receiver.receiveChunks {}
        [(({} : Response).compose 404 http11 [.setHeader "Server" "switchboard",
          .setCookie { name := "sid", value := "42", path := some "/" }] (utf8 "gone")).raw.take 7,
         (({} : Response).compose 404 http11 [.setHeader "Server" "switchboard",
          .setCookie { name := "sid", value := "42", path := some "/" }] (utf8 "gone")).raw.drop 7])
      (({} : Response).compose 404 http11 [.setHeader "Server" "switchboard",
        .setCookie { name := "sid", value := "42", path := some "/" }] (utf8 "gone"))
      ⟨[Response.Command.setHeader "Server" "switchboard",
        .setCookie { name := "sid", value := "42", path := some "/" }].flatMap Response.Command.scanned⟩ ∧
    (Response.receiver.receiveChunks {}
        [(({} : Response).compose 404 http11 [.setHeader "Server" "switchboard",
          .setCookie { name := "sid", value := "42", path := some "/" }] (utf8 "gone")).raw.take 7,
         (({} : Response).compose 404 http11 [.setHeader "Server" "switchboard",
          .setCookie { name := "sid", value := "42", path := some "/" }] (utf8 "gone")).raw.drop 7]).cookies.get?
      "sid" = some "42" := by
  obtain ⟨back, found⟩ := composed_responses_read_back_in_any_pieces.1 {} 404 http11
    [.setHeader "Server" "switchboard", .setCookie { name := "sid", value := "42", path := some "/" }] (utf8 "gone")
    [(({} : Response).compose 404 http11 [.setHeader "Server" "switchboard",
      .setCookie { name := "sid", value := "42", path := some "/" }] (utf8 "gone")).raw.take 7,
     (({} : Response).compose 404 http11 [.setHeader "Server" "switchboard",
      .setCookie { name := "sid", value := "42", path := some "/" }] (utf8 "gone")).raw.drop 7]
    (by decide) (by decide) (by decide) (by decide +kernel) (by simp)
  exact ⟨back, found [.setHeader "Server" "switchboard"] _ [] rfl (by simp [Response.Command.scanned])⟩

/-- A cookie whose name starts with a tab is written after the blank of its header line, and the
reader skips both blanks: the response read back holds the cookie without its tab. -/
theorem tabbed_set_cookie_name_reads_back_untabbed :
    ({ name := "\tx", value := "v" } : SetCookie).pairs = [("\tx", "v"), ("Max-Age", "86400")] ∧
      (Response.ofBytes (({} : Response).compose 200 http11
        [.setCookie { name := "\tx", value := "v" }] []).raw).cookies = ⟨[("x", "v"), ("Max-Age", "86400")]⟩ := by
  have h : Response.Composed (({} : Response).compose 200 http11 [.setCookie { name := "\tx", value := "v" }] [])
      200 http11 [.setCookie { name := "\tx", value := "v" }] [] :=
    ((Response.composing_setBeginWith {} 200 http11).setCookie { name := "\tx", value := "v" }).setBody []
  refine ⟨by decide, ?_⟩
  have each : ∀ line ∈ Response.headerLines [.setCookie { name := "\tx", value := "v" }] 0,
      line ≠ [] ∧ 13 ∉ line := by
    decide +kernel
  have tab : utf8 ({ name := "\tx", value := "v" } : SetCookie).render =
      9 :: utf8 ({ name := "x", value := "v" } : SetCookie).render := by
    decide +kernel
  have cookieLine : ∀ more, lineText ("Set-Cookie", ({ name := "\tx", value := "v" } : SetCookie).render) ++
      13 :: 10 :: more =
      utf8 "Set-Cookie" ++ 58 :: [32, 9] ++ utf8 ({ name := "x", value := "v" } : SetCookie).render ++
        13 :: 10 :: more := by
    intro more
    rw [lineText, tab]
    simp
  obtain ⟨nonempty, nameEnds⟩ := (show HeaderName "Set-Cookie" by decide).bytes
  obtain ⟨valueStarts, valueEnds⟩ :=
    (headerValue_render (c := { name := "x", value := "v" }) (by decide) (by decide)).bytes
  have lines : parseHeaderLines (statusText 200 http11 ++ [13, 10] ++
      crlfLines (Response.headerLines [.setCookie { name := "\tx", value := "v" }] 0))
      ((statusText 200 http11).length + 2) "Set-Cookie" =
      (.ok (some 0), { headers := ⟨[("Set-Cookie", ({ name := "x", value := "v" } : SetCookie).render),
                                    ("Content-Length", toString 0)]⟩,
                       cookies := ⟨({ name := "x", value := "v" } : SetCookie).pairs⟩, contentLength := some 0 }) := by
    unfold parseHeaderLines Response.headerLines
    rw [List.drop_left' (by simp)]
    simp only [List.filterMap_cons, List.filterMap_nil, Response.Command.header?, List.map_cons, List.map_nil,
      List.cons_append, List.nil_append]
    rw [crlfLines_cons, cookieLine, readHeaderLines_line _ _ nonempty nameEnds (by simp) valueStarts valueEnds,
      Utf8.lenient_utf8, HeaderScan.read_setCookie _ (by decide)]
    dsimp only
    rw [crlfLines_cons, crlfLines_nil, readHeaderLines_lineText [] _ (show HeaderName "Content-Length" by decide)
      (headerValue_toString 0) (HeaderScan.read_contentLength _ _ (Nat.zero_le _)), readHeaderLines_nil,
      Utf8.lenient_utf8]
    simp [Fields.insert, Fields.insertAll, Except.map]
  obtain ⟨-, -, -, -, once⟩ := h.readsBack_of_lines (by decide) (by decide) each lines
  rw [once.cookies]
  decide

end Switchboard.Http
