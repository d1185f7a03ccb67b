import Switchboard.Http.Cookie
import Switchboard.Http.StartLine
import Switchboard.Word
/-!
# Header lines

Each header line is a name, a colon, optional blanks, a value and CR LF. A `Content-Length` line
declares the body length (the last one counts); the value of the cookie header is scanned into
cookie pairs. Reading stops at the first bad line, keeping the lines read before it.
-/
namespace Switchboard.Http

/-- A declared body length: one or more decimal digits that fit in a word. Each byte is checked in
turn, so a non-digit is reported only if no overflow came before it. -/
def parseContentLength (value : List UInt8) : Except HttpError Nat :=
  if value.isEmpty then .error (.invalidHeader "empty Content-Length")
  else value.foldlM (fun acc b =>
    if Ascii.isDigit b then
      match mulWord? acc 10 >>= fun m => addWord? m (b.toNat - 48) with
      | some v => .ok v
      | none => .error (.invalidHeader "Content-Length overflow")
    else .error (.invalidHeader s!"invalid Content-Length: {Utf8.lenient value}")) 0

/-- What reading header lines has gathered so far. -/
structure HeaderScan where
  headers : Headers := {}
  cookies : Cookies := {}
  contentLength : Option Nat := none
  deriving Repr

def readHeaderLines (cookieHeader : String) (offset : Nat) (rest : List UInt8) (acc : HeaderScan) :
    Except HttpError HeaderScan × HeaderScan :=
  if rest.isEmpty then (.ok acc, acc)
  else
    let nameBytes := rest.takeWhile fun b => b != 58 && b != 13
    match hAfter : rest.dropWhile (fun b => b != 58 && b != 13) with
    | [] => (.error (.invalidHeader "unterminated header name"), acc)
    | b :: afterColon =>
      if b != 58 then (.error (.invalidHeader "header line without ':'"), acc)
      else if nameBytes.isEmpty then (.error (.invalidHeader "empty header name"), acc)
      else
        let valueStart := afterColon.dropWhile fun c => c == 32 || c == 9
        let skipped := afterColon.length - valueStart.length
        let valueBytes := valueStart.takeWhile (· != 13)
        match hEnd : valueStart.dropWhile (· != 13) with
        | [] => (.error (.invalidHeader "unterminated header value"), acc)
        | _ :: afterCr =>
          let valueEnd := offset + nameBytes.length + 1 + skipped + valueBytes.length
          match afterCr with
          | b :: more =>
            if b != 10 then (.error (.parse (missingByte 10 (valueEnd + 1))), acc)
            else
              let name := Utf8.lenient nameBytes
              let value := Utf8.lenient valueBytes
              let step : Except HttpError HeaderScan :=
                if Ascii.eqFold name "Content-Length" then
                  (parseContentLength valueBytes).map fun n => { acc with contentLength := some n }
                else if Ascii.eqFold name cookieHeader then
                  .ok { acc with cookies := acc.cookies.insertAll (scanCookies valueBytes) }
                else .ok acc
              match step with
              | .error e => (.error e, acc)
              | .ok acc' =>
                have h1 := length_dropWhile_le (fun b => b != 58 && b != 13) rest
                have h2 : valueStart.length ≤ afterColon.length := length_dropWhile_le _ _
                have h3 := length_dropWhile_le (· != 13) valueStart
                have : more.length < rest.length := by
                  rw [hAfter] at h1; rw [hEnd] at h3
                  simp only [List.length_cons] at h1 h3; omega
                readHeaderLines cookieHeader (valueEnd + 2) more
                  { acc' with headers := acc'.headers.insert name value }
          | [] => (.error (.parse (missingByte 10 (valueEnd + 1))), acc)
termination_by rest.length

/-- Reads the header lines of `block` from offset `index` on. The answer is the declared length or
the first error, together with the headers and cookies read before that error. -/
def parseHeaderLines (block : List UInt8) (index : Nat) (cookieHeader : String) :
    Except HttpError (Option Nat) × HeaderScan :=
  let r := readHeaderLines cookieHeader index (block.drop index) {}
  (r.1.map (·.contentLength), r.2)

end Switchboard.Http
