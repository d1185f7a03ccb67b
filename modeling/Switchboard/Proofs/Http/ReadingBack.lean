import Mathlib
import Switchboard.Proofs.Http.Composing
import Switchboard.Proofs.Http.SplitReading

/-!
# Composed requests read back

A request a client composes, read from its bytes, gives back the request composed: its start line,
its headers and cookies in order, and its body. Read at once, the header reader meets each line as
the composer wrote it (`readHeaderLines_composed`); read from any pieces, it agrees with reading at
once. A cookie name that starts with a tab is the exception: the reader skips blanks after a colon.
-/

namespace Switchboard.Http

theorem ofBytes_of_read {raw : List UInt8} {t : Nat} (found : findTerminator raw 0 = some t)
    {line : StartLine} (start : parseStartLine (raw.take (t + 2)) = .ok line) {scan : HeaderScan}
    {len : Nat} (lines : parseHeaderLines (raw.take (t + 2)) line.next "Cookie" = (.ok (some len), scan))
    (whole : t + 4 + len ≤ raw.length) :
    (Request.ofBytes raw).state = .complete ∧ (Request.ofBytes raw).method = line.first ∧
      (Request.ofBytes raw).url = line.second ∧ (Request.ofBytes raw).protocol = line.third ∧
      (Request.ofBytes raw).headers = scan.headers ∧ (Request.ofBytes raw).cookies = scan.cookies ∧
      (Request.ofBytes raw).body = (raw.drop (t + 4)).take len ∧ (Request.ofBytes raw).bodyLength = len ∧
      (Request.ofBytes raw).cursor.lengthGiven = true := by
  have bytes : (ByteBuffer.empty.write raw).2.bytes = raw := by
    simpa [ByteBuffer.empty, ByteBuffer.bytes] using ByteBuffer.bytes_write ByteBuffer.empty raw (Nat.le_refl 0)
  have read : (parseStartLine (raw.take (t + 2)) >>= fun line => (Except.ok line : Except HttpError StartLine).map
      fun a => (line, a)) = .ok (line, line) := by
    rw [start]
    rfl
  have size : (ByteBuffer.empty.write raw).2.length = raw.length := by
    simpa [ByteBuffer.empty] using ByteBuffer.length_write ByteBuffer.empty raw
  unfold Request.ofBytes Request.receiveHeader Message.receiveHeader
  simp only [bytes, found, read, lines, size]
  have reaches : len ≤ raw.length - (t + 4) + ([] : List UInt8).length := by simp; omega
  have unchanged : (ByteBuffer.empty.write raw).2.write [] = (0, (ByteBuffer.empty.write raw).2) := rfl
  simp only [Request.receiveBody, Message.receiveBody, BodyCursor.feed, BodyCursor.resetLength,
    BodyCursor.setContentLength, if_true, reaches, unchanged]
  simp [Message.body, Message.raw, Message.bodyLength, BodyCursor.body, BodyCursor.stop, bytes]
  rw [Nat.min_eq_left whole, List.drop_take, Nat.add_sub_cancel_left]

theorem readHeaderLines_lineText {cookieHeader : String} {offset : Nat} {name value : String}
    (more : List UInt8) (acc : HeaderScan) (named : HeaderName name) (valued : HeaderValue value)
    {acc' : HeaderScan} (read : acc.read cookieHeader name (utf8 value) = .ok acc') :
    readHeaderLines cookieHeader offset (lineText (name, value) ++ 13 :: 10 :: more) acc =
      readHeaderLines cookieHeader (offset + (lineText (name, value)).length + 2) more
        { acc' with headers := acc'.headers.insert name value } := by
  obtain ⟨nonempty, noColon, noCr⟩ := named.bytes
  obtain ⟨start, valueNoCr⟩ := valued.bytes
  have split : lineText (name, value) ++ 13 :: 10 :: more =
      utf8 name ++ 58 :: [32] ++ utf8 value ++ 13 :: 10 :: more := by
    simp [lineText]
  have blank : ∀ b ∈ [(32 : UInt8)], b = 32 ∨ b = 9 := by simp
  have next : offset + (utf8 name).length + [(32 : UInt8)].length + (utf8 value).length + 3 =
      offset + (lineText (name, value)).length + 2 := by
    simp only [lineText, List.length_append, List.length_cons, List.length_nil]
    omega
  rw [split, readHeaderLines_line more acc nonempty ⟨noColon, noCr⟩ blank start valueNoCr,
    Utf8.lenient_utf8, read, next]
  simp only [Utf8.lenient_utf8]

theorem scanCookies_utf8 {name value : String} (named : CookieToken name) (valued : CookieToken value) :
    scanCookies (utf8 (name ++ "=" ++ value)) = [(name, value)] := by
  obtain ⟨nameBytes, namePlain⟩ := named.bytes
  obtain ⟨valueBytes, valuePlain⟩ := valued.bytes
  have split : utf8 (name ++ "=" ++ value) = utf8 name ++ 61 :: utf8 value := by
    simp [utf8_eq_map (s := "=")]
  rw [split, scanCookies_pair nameBytes valueBytes, Utf8.lenient_utf8, Utf8.lenient_utf8]
  intro b mem
  rcases List.mem_append.1 mem with inName | inValue
  · exact namePlain b inName
  · exact valuePlain b inValue

theorem HeaderScan.read_cookie (acc : HeaderScan) {name value : String} (named : CookieToken name)
    (valued : CookieToken value) :
    acc.read "Cookie" "Cookie" (utf8 (name ++ "=" ++ value)) =
      .ok { acc with cookies := acc.cookies.insertAll [(name, value)] } := by
  rw [HeaderScan.read, if_neg (by decide), if_pos (by decide), scanCookies_utf8 named valued]

theorem HeaderScan.read_length (acc : HeaderScan) {len : Nat} (fits : len ≤ wordMax) :
    acc.read "Cookie" "Content-Length" (utf8 (toString len)) = .ok { acc with contentLength := some len } := by
  rw [HeaderScan.read, if_pos (by decide), parseContentLength_toString fits]
  rfl

/-- The header lines of composable commands read as the headers and cookies the commands set. -/
theorem readHeaderLines_composed {cmds : List Request.Command} (composable : ∀ c ∈ cmds, c.Composable)
    (offset : Nat) (more : List UInt8) (acc : HeaderScan) :
    readHeaderLines "Cookie" offset
        (crlfLines ((cmds.filterMap Request.Command.header?).map lineText) ++ more) acc =
      readHeaderLines "Cookie"
        (offset + (crlfLines ((cmds.filterMap Request.Command.header?).map lineText)).length) more
        { acc with headers := acc.headers.insertAll (cmds.filterMap Request.Command.header?),
                   cookies := acc.cookies.insertAll (cmds.filterMap Request.Command.cookie?) } := by
  induction cmds generalizing offset acc with
  | nil => simp [Fields.insertAll]
  | cons c cmds ih =>
    have later : ∀ c' ∈ cmds, c'.Composable := fun c' mem => composable c' (List.mem_cons_of_mem c mem)
    cases c with
    | setHeader name value =>
      obtain ⟨named, valued, notLength, notCookie⟩ := composable _ List.mem_cons_self
      have read : acc.read "Cookie" name (utf8 value) = .ok acc := by
        simp [HeaderScan.read, notLength, notCookie]
      simp only [List.filterMap_cons, Request.Command.header?, Request.Command.cookie?, List.map_cons,
        crlfLines_cons, List.append_assoc, List.cons_append]
      rw [readHeaderLines_lineText _ acc named valued read, ih later]
      congr 1
      · simp only [List.length_append, List.length_cons]
        omega
      · simp [Fields.insert, Fields.insertAll]
    | setCookie name value =>
      obtain ⟨named, valued, untabbed⟩ := composable _ List.mem_cons_self
      simp only [List.filterMap_cons, Request.Command.header?, Request.Command.cookie?, List.map_cons,
        crlfLines_cons, List.append_assoc, List.cons_append]
      rw [readHeaderLines_lineText _ acc (by decide) (named.headerValue valued untabbed)
        (HeaderScan.read_cookie acc named valued), ih later]
      congr 1
      · simp only [List.length_append, List.length_cons]
        omega
      · simp [Fields.insert, Fields.insertAll]
    | _ => exact (composable _ List.mem_cons_self).elim

theorem lineText_ne_nil (header : String × String) : lineText header ≠ [] := by
  simp [lineText]

theorem not_mem_lineText {header : String × String} (named : HeaderName header.1)
    (valued : 13 ∉ utf8 header.2) : 13 ∉ lineText header := by
  simp only [lineText, List.mem_append, List.mem_cons, not_or]
  exact ⟨named.bytes.2.2, by decide, by decide, valued⟩

theorem http11_bytes : utf8 http11 = [72, 84, 84, 80, 47, 49, 46, 49] := by
  unfold http11
  decide +kernel

theorem not_mem_startText {method url : String} (m : StartToken method) (u : StartToken url) :
    13 ∉ startText method url := by
  simp only [startText, List.mem_append, List.mem_cons, not_or]
  exact ⟨m.bytes.2, by decide, u.bytes.2, by decide, by rw [http11_bytes]; decide⟩

theorem readable_lines {cmds : List Request.Command} (composable : ∀ c ∈ cmds, c.Composable)
    (len : Nat) : ∀ line ∈ (cmds.filterMap Request.Command.header?).map lineText ++
      [lineText ("Content-Length", toString len)], line ≠ [] ∧ 13 ∉ line := by
  intro line mem
  simp only [List.mem_append, List.mem_map, List.mem_filterMap, List.mem_singleton] at mem
  rcases mem with ⟨header, ⟨c, mem, writes⟩, rfl⟩ | rfl
  · obtain ⟨named, valued⟩ := Request.Command.header?_readable (composable c mem) writes
    exact ⟨lineText_ne_nil _, not_mem_lineText named valued.bytes.2⟩
  · exact ⟨lineText_ne_nil _,
      not_mem_lineText (show HeaderName "Content-Length" by decide) (headerValue_toString len).bytes.2⟩

/-- A received request holding what was composed: complete, with its start line, headers, cookies
and body. -/
structure ReadsBack (received composed : Request) : Prop where
  complete : received.state = .complete
  method : received.method = composed.method
  url : received.url = composed.url
  protocol : received.protocol = composed.protocol
  version : received.protocol = http11
  headers : received.headers = composed.headers
  cookies : received.cookies = composed.cookies
  body : received.body = composed.body
  bodyLength : received.bodyLength = composed.bodyLength

section Reading

variable {c : Request} {method url : String} {cmds : List Request.Command} {content : List UInt8}

theorem Composed.take_block (h : Composed c method url cmds content) :
    c.raw.take ((startText method url).length + (crlfLines ((cmds.filterMap Request.Command.header?).map
      lineText ++ [lineText ("Content-Length", toString content.length)])).length + 2) =
    startText method url ++ 13 :: 10 :: crlfLines ((cmds.filterMap Request.Command.header?).map
      lineText ++ [lineText ("Content-Length", toString content.length)]) := by
  rw [h.raw]
  generalize crlfLines _ = block
  have regroup : startText method url ++ 13 :: 10 :: (block ++ 13 :: 10 :: content) =
      (startText method url ++ 13 :: 10 :: block) ++ 13 :: 10 :: content := by simp
  rw [regroup, List.take_left' (by simp; omega)]

theorem parseStartLine_composed (m : StartToken method) (u : StartToken url) (rest : List UInt8) :
    parseStartLine (startText method url ++ 13 :: 10 :: rest) =
      .ok ⟨method, url, http11, (startText method url).length + 2⟩ := by
  have version : 13 ∉ utf8 http11 := by rw [http11_bytes]; decide
  simp only [startText, List.append_assoc, List.cons_append]
  rw [parseStartLine_append rest m.bytes.1 u.bytes.1 version, Utf8.lenient_utf8, Utf8.lenient_utf8,
    Utf8.lenient_utf8]
  simp only [List.length_append, List.length_cons]
  congr 2
  omega

theorem parseHeaderLines_composed (composable : ∀ x ∈ cmds, x.Composable) {len : Nat}
    (fits : len ≤ wordMax) (start : List UInt8) :
    parseHeaderLines (start ++ crlfLines ((cmds.filterMap Request.Command.header?).map lineText ++
        [lineText ("Content-Length", toString len)])) start.length "Cookie" =
      (.ok (some len), { headers := ⟨cmds.filterMap Request.Command.header? ++ [("Content-Length", toString len)]⟩,
                         cookies := ⟨cmds.filterMap Request.Command.cookie?⟩, contentLength := some len }) := by
  unfold parseHeaderLines
  rw [List.drop_left, crlfLines_append, readHeaderLines_composed composable, crlfLines_cons, crlfLines_nil,
    readHeaderLines_lineText [] _ (show HeaderName "Content-Length" by decide) (headerValue_toString len)
      (HeaderScan.read_length _ fits), readHeaderLines_nil]
  simp [Fields.insert, Fields.insertAll, Except.map]

theorem Composed.readsBack_of_lines (h : Composed c method url cmds content) (m : StartToken method)
    (u : StartToken url)
    (readable : ∀ line ∈ (cmds.filterMap Request.Command.header?).map lineText ++
      [lineText ("Content-Length", toString content.length)], line ≠ [] ∧ 13 ∉ line)
    {scan : HeaderScan}
    (lines : parseHeaderLines (startText method url ++ [13, 10] ++ crlfLines ((cmds.filterMap
      Request.Command.header?).map lineText ++ [lineText ("Content-Length", toString content.length)]))
      ((startText method url).length + 2) "Cookie" = (.ok (some content.length), scan)) :
    ∃ t, findTerminator c.raw 0 = some t ∧ t + 4 + content.length = c.raw.length ∧
      (Request.ofBytes c.raw).cursor.lengthGiven = true ∧
      ReadsBack (Request.ofBytes c.raw) { c with headers := scan.headers, cookies := scan.cookies } := by
  have found : findTerminator c.raw 0 = some ((startText method url).length + (crlfLines
      ((cmds.filterMap Request.Command.header?).map lineText ++
        [lineText ("Content-Length", toString content.length)])).length) := by
    rw [findTerminator, List.drop_zero, h.raw, findTerminator_go_lines (not_mem_startText m u) readable,
      Nat.zero_add]
  have start := parseStartLine_composed m u (crlfLines ((cmds.filterMap Request.Command.header?).map
    lineText ++ [lineText ("Content-Length", toString content.length)]))
  simp only [List.append_assoc, List.cons_append, List.nil_append] at lines
  rw [← h.take_block] at start lines
  have whole : (startText method url).length + (crlfLines ((cmds.filterMap Request.Command.header?).map
      lineText ++ [lineText ("Content-Length", toString content.length)])).length + 4 + content.length =
      c.raw.length := by
    rw [h.raw]
    simp only [List.length_append, List.length_cons]
    omega
  have tail : c.raw.drop ((startText method url).length + (crlfLines ((cmds.filterMap
      Request.Command.header?).map lineText ++ [lineText ("Content-Length", toString content.length)])).length +
      4) = content := by
    rw [h.raw]
    generalize crlfLines _ = block
    have regroup : startText method url ++ 13 :: 10 :: (block ++ 13 :: 10 :: content) =
        (startText method url ++ 13 :: 10 :: block ++ [13, 10]) ++ content := by simp
    rw [regroup, List.drop_left' (by simp; omega)]
  obtain ⟨complete, rm, ru, rp, rh, rc, rb, rl, given⟩ := ofBytes_of_read found start lines whole.le
  refine ⟨_, found, whole, given, ⟨complete, ?_, ?_, ?_, rp, rh, rc, ?_, ?_⟩⟩
  · rw [rm, h.method]
  · rw [ru, h.url]
  · rw [rp, h.protocol]
  · show _ = c.body
    rw [rb, tail, h.body, List.take_length]
  · show _ = c.bodyLength
    rw [rl, h.bodyLength]

theorem Composed.readsBack (h : Composed c method url cmds content) (m : StartToken method)
    (u : StartToken url) (composable : ∀ x ∈ cmds, x.Composable) (fits : content.length ≤ wordMax) :
    ∃ t, findTerminator c.raw 0 = some t ∧ t + 4 + content.length = c.raw.length ∧
      (Request.ofBytes c.raw).cursor.lengthGiven = true ∧ ReadsBack (Request.ofBytes c.raw) c := by
  have lines := parseHeaderLines_composed composable fits (startText method url ++ [13, 10])
  simp only [List.length_append, List.length_cons, List.length_nil] at lines
  have same : { c with headers := ⟨cmds.filterMap Request.Command.header? ++
      [("Content-Length", toString content.length)]⟩, cookies := ⟨cmds.filterMap Request.Command.cookie?⟩ } = c := by
    rw [← h.headers, ← h.cookies]
  simpa only [same] using h.readsBack_of_lines m u (readable_lines composable _) lines

theorem Composed.readsBack_pieces (h : Composed c method url cmds content) (m : StartToken method)
    (u : StartToken url) (composable : ∀ x ∈ cmds, x.Composable) (fits : content.length ≤ wordMax)
    {cs : List (List UInt8)} (pieces : cs.flatten = c.raw) :
    ReadsBack (Request.receiver.receiveChunks {} cs) c := by
  obtain ⟨t, found, whole, given, once⟩ := h.readsBack m u composable fits
  obtain ⟨-, -, split⟩ := Request.receiveChunks_take cs cs.length
  rw [List.take_length, pieces] at split
  obtain ⟨done, same⟩ := split t found (by rw [once.complete]; decide) (.inl given)
  have complete := done.2 (by rw [once.bodyLength, h.bodyLength]; omega)
  obtain ⟨sm, su, sp, sh, sc, sb, sl⟩ := same complete
  exact ⟨complete, sm.trans once.method, su.trans once.url, sp.trans once.protocol,
    sp.trans once.version, sh.trans once.headers, sc.trans once.cookies, sb.trans once.body,
    sl.trans once.bodyLength⟩

end Reading

theorem Request.readsBack_compose (r : Request) {method url : String} {cmds : List Request.Command}
    {body : List UInt8} (m : StartToken method) (u : StartToken url) (composable : ∀ c ∈ cmds, c.Composable)
    (fits : body.length ≤ wordMax) {cs : List (List UInt8)} (pieces : cs.flatten = (r.compose method url cmds body).raw) :
    ReadsBack (Request.receiver.receiveChunks {} cs) (r.compose method url cmds body) :=
  (r.composed_compose method url composable body).readsBack_pieces m u composable fits pieces

/-- A request a client composes reads back whole from any pieces of its bytes: set its start line,
then headers and cookies in any order, then its body; or make it at once, without content or with
content and its type. A fresh request fed those pieces completes with the same method, url,
protocol, headers and cookies, in order, and the same body and length. -/
theorem composed_requests_read_back_in_any_pieces :
    (∀ (r : Request) (method url : String) (cmds : List Request.Command) (body : List UInt8)
        (cs : List (List UInt8)), StartToken method → StartToken url → (∀ c ∈ cmds, c.Composable) →
        body.length ≤ wordMax → cs.flatten = (r.compose method url cmds body).raw →
        ReadsBack (Request.receiver.receiveChunks {} cs) (r.compose method url cmds body)) ∧
    (∀ (r : Request) (m : Method) (url : String) (cs : List (List UInt8)), StartToken url →
        cs.flatten = (r.make m url).raw →
        ReadsBack (Request.receiver.receiveChunks {} cs) (r.make m url)) ∧
    (∀ (r : Request) (m : Method) (url : String) (content : List UInt8) (contentType : String)
        (cs : List (List UInt8)), StartToken url → (contentType = "" ∨ HeaderValue contentType) →
        content.length ≤ wordMax → cs.flatten = (r.makeContent m url content contentType).raw →
        ReadsBack (Request.receiver.receiveChunks {} cs) (r.makeContent m url content contentType)) := by
  refine ⟨fun r method url cmds body cs m u composable fits pieces =>
      r.readsBack_compose m u composable fits pieces,
    fun r m url cs u pieces => ?_, fun r m url content contentType cs u typed fits pieces => ?_⟩
  · rw [Request.make_eq_compose] at pieces ⊢
    exact r.readsBack_compose (startToken_name m) u (by simp) (Nat.zero_le _) pieces
  · rw [Request.makeContent_eq_compose] at pieces ⊢
    refine r.readsBack_compose (startToken_name m) u ?_ fits pieces
    split
    · simp
    · rename_i nonempty
      have valued : HeaderValue contentType := typed.resolve_left (by simpa using nonempty)
      simp only [List.mem_singleton, forall_eq]
      exact ⟨by decide, valued, by decide, by decide⟩

/-- A GET with a host header and a cookie, received in two pieces split inside its start line. -/
theorem get_with_host_and_cookie_reads_back_in_two_pieces :
    ReadsBack (Request.receiver.receiveChunks {}
        [(({} : Request).compose "GET" "/" [Request.Command.setHeader "Host" "example.com",
          Request.Command.setCookie "sid" "42"] (utf8 "hi")).raw.take 5,
         (({} : Request).compose "GET" "/" [Request.Command.setHeader "Host" "example.com",
          Request.Command.setCookie "sid" "42"] (utf8 "hi")).raw.drop 5])
      (({} : Request).compose "GET" "/" [Request.Command.setHeader "Host" "example.com",
        Request.Command.setCookie "sid" "42"] (utf8 "hi")) :=
  composed_requests_read_back_in_any_pieces.1 _ _ _ _ _ _ (by decide) (by decide) (by decide)
    (by decide +kernel) (by simp)

/-- A cookie whose name starts with a tab is written after the blank of its header line, and the
reader skips both blanks: the request read back holds the cookie without its tab. -/
theorem tabbed_cookie_name_reads_back_untabbed :
    (({} : Request).compose "GET" "/" [Request.Command.setCookie "\tx" "v"] []).cookies =
        ⟨[("\tx", "v")]⟩ ∧
      (Request.ofBytes (({} : Request).compose "GET" "/" [Request.Command.setCookie "\tx" "v"] []).raw).cookies =
        ⟨[("x", "v")]⟩ := by
  have h : Composed (({} : Request).compose "GET" "/" [Request.Command.setCookie "\tx" "v"] []) "GET" "/"
      [Request.Command.setCookie "\tx" "v"] [] :=
    ((composing_setBegin {} "GET" "/").setCookie "\tx" "v").setBody []
  refine ⟨h.cookies, ?_⟩
  have each : ∀ line ∈ [lineText ("Cookie", "\tx" ++ "=" ++ "v"), lineText ("Content-Length", toString 0)],
      line ≠ [] ∧ 13 ∉ line := by
    decide +kernel
  have cookieLine : ∀ more, lineText ("Cookie", "\tx" ++ "=" ++ "v") ++ 13 :: 10 :: more =
      utf8 "Cookie" ++ 58 :: [32, 9] ++ utf8 ("x" ++ "=" ++ "v") ++ 13 :: 10 :: more := by
    intro more
    have tab : utf8 ("\tx" ++ "=" ++ "v") = 9 :: utf8 ("x" ++ "=" ++ "v") := by decide +kernel
    rw [lineText, tab]
    simp
  obtain ⟨nonempty, nameEnds⟩ := (show HeaderName "Cookie" by decide).bytes
  obtain ⟨valueStarts, valueEnds⟩ := (show HeaderValue ("x" ++ "=" ++ "v") by decide).bytes
  have lines : parseHeaderLines (startText "GET" "/" ++ [13, 10] ++
      crlfLines [lineText ("Cookie", "\tx" ++ "=" ++ "v"), lineText ("Content-Length", toString 0)])
      ((startText "GET" "/").length + 2) "Cookie" =
      (.ok (some 0), { headers := ⟨[("Cookie", "x" ++ "=" ++ "v"), ("Content-Length", toString 0)]⟩,
                       cookies := ⟨[("x", "v")]⟩, contentLength := some 0 }) := by
    unfold parseHeaderLines
    rw [List.drop_left' (by simp), crlfLines_cons, cookieLine, readHeaderLines_line _ _ nonempty nameEnds
      (by simp) valueStarts valueEnds, Utf8.lenient_utf8, HeaderScan.read_cookie _ (by decide) (by decide)]
    dsimp only
    rw [crlfLines_cons, crlfLines_nil, readHeaderLines_lineText [] _ (show HeaderName "Content-Length" by decide)
      (headerValue_toString 0) (HeaderScan.read_length _ (Nat.zero_le _)), readHeaderLines_nil, Utf8.lenient_utf8]
    simp [Fields.insert, Fields.insertAll, Except.map]
  obtain ⟨-, -, -, -, once⟩ := h.readsBack_of_lines (by decide) (by decide) each lines
  exact once.cookies

end Switchboard.Http
