import Switchboard.WebSocket.Handshake
import Switchboard.Text.Utf8
/-!
# Replayed connections

A connection whose peer follows a script of cues: data handed out in pieces of at most the reader's
buffer, silence, an end of stream or a failure. Writes are bounded per call and in all, and every
`{ACCEPT}` in a data cue becomes the accept value of the last key written before it is read.
-/
namespace Switchboard.Net

open Switchboard.Http

/-- What the peer does at the next read. -/
inductive Cue where
  | data (bytes : List UInt8) (quotesAccept : Bool := false)
  | silence
  | eof
  | fail (text : String)
  deriving Repr

/-- A connection to a scripted peer, with what was written to it and how often it was closed. -/
structure Replay where
  cues : List Cue
  writeMax : Nat := 0
  writeBudget : Option Nat := none
  written : List UInt8 := []
  closes : Nat := 0
  deriving Repr

def acceptPlaceholder : List UInt8 := utf8 "\x7bACCEPT\x7d"

def replaceAll (pat rep : List UInt8) (bs : List UInt8) : List UInt8 :=
  match pat with
  | [] => bs
  | p :: ps => go p ps bs
where
  go (p : UInt8) (ps : List UInt8) : List UInt8 → List UInt8
    | [] => []
    | b :: rest =>
      if b == p && rest.take ps.length == ps then rep ++ go p ps (rest.drop ps.length)
      else b :: go p ps rest
  termination_by bs => bs.length
  decreasing_by all_goals (simp only [List.length_drop, List.length_cons]; omega)

/-- The value of the last `Sec-WebSocket-Key` header in the bytes, if any, read as UTF-8 with a
replacement character for each ill-formed sequence. -/
def lastKey (bs : List UInt8) : Option String :=
  let marker := utf8 "Sec-WebSocket-Key: "
  let rec scan (fuel : Nat) (rest : List UInt8) (found : Option String) : Option String :=
    match fuel, rest with
    | 0, _ => found
    | _, [] => found
    | f + 1, b :: tail =>
      if (b :: tail).take marker.length == marker then
        let v := ((b :: tail).drop marker.length).takeWhile (· != 13)
        scan f tail (some (Utf8.lenient v))
      else scan f tail found
  scan bs.length bs none

namespace Replay

variable [Crypto]

/-- A bound on the reads that can still answer data: every such read takes at least one byte or
one cue, and a quoted accept value (28 bytes for a 20-byte digest) is less than four times its
placeholder (8 bytes). -/
def weight (r : Replay) : Nat :=
  r.cues.foldl (fun n c => n + 1 + match c with
    | .data bs _ => 4 * bs.length
    | _ => 0) 1

def read (r : Replay) (max : Nat) : Except HttpError (List UInt8) × Replay :=
  match r.cues with
  | [] => (.ok [], r)
  | .silence :: rest => (.error .timeout, { r with cues := rest })
  | .eof :: rest => (.ok [], { r with cues := rest })
  | .fail t :: rest => (.error (.io t), { r with cues := rest })
  | .data bs q :: rest =>
    let bs := if q then replaceAll acceptPlaceholder (utf8 (WebSocket.acceptKey ((lastKey r.written).getD ""))) bs else bs
    let later := bs.drop max
    (.ok (bs.take max), { r with cues := if later.isEmpty then rest else .data later :: rest })

def write (r : Replay) (bytes : List UInt8) : Nat × Replay :=
  let n := if r.writeMax == 0 then bytes.length else min bytes.length r.writeMax
  let n := match r.writeBudget with
    | some b => min n b
    | none => n
  (n, { r with written := r.written ++ bytes.take n, writeBudget := r.writeBudget.map (· - n) })

def writeAll (r : Replay) (bytes : List UInt8) : Except HttpError Unit × Replay :=
  go bytes.length r bytes
where
  go (fuel : Nat) (r : Replay) (bytes : List UInt8) : Except HttpError Unit × Replay :=
    match fuel, bytes with
    | _, [] => (.ok (), r)
    | 0, _ => (.error .connectionClosed, r)
    | f + 1, bytes =>
      let (n, r) := r.write bytes
      if n == 0 then (.error .connectionClosed, r) else go f r (bytes.drop n)

def close (r : Replay) : Replay := { r with closes := r.closes + 1 }

end Replay

end Switchboard.Net
