import Switchboard.Http.Error
import Switchboard.Text.Ascii
import Switchboard.Text.Utf8
/-!
# Start lines

A start line is three fields: the first two end at a space, the third at CR, and LF must follow.
The fields are decoded leniently; `next` is the offset just past the LF.
-/
namespace Switchboard.Http

/-- The three fields of a start line and the offset after it. -/
structure StartLine where
  first : String
  second : String
  third : String
  next : Nat
  deriving Repr, DecidableEq

def takeUntil (block : List UInt8) (start : Nat) (delimiter : UInt8) :
    Except HttpError (String × Nat) :=
  if start > block.length then .error (.parse "truncated start line")
  else
    let rest := block.drop start
    match rest.findIdx? (· == delimiter) with
    | some p => .ok (Utf8.lenient (rest.take p), start + p + 1)
    | none => .error (.parse "truncated start line")

def missingByte (expected : UInt8) (index : Nat) : String :=
  let shown := Ascii.quoted (Char.ofNat expected.toNat)
  s!"expected {shown} at offset {index}"

def expectByte (block : List UInt8) (index : Nat) (expected : UInt8) : Except HttpError Nat :=
  if block[index]? = some expected then .ok (index + 1)
  else .error (.parse (missingByte expected index))

def parseStartLine (block : List UInt8) : Except HttpError StartLine := do
  let (first, i) ← takeUntil block 0 32
  let (second, i) ← takeUntil block i 32
  let (third, i) ← takeUntil block i 13
  let next ← expectByte block i 10
  return { first, second, third, next }

end Switchboard.Http
