/-!
# ASCII text and byte strings

Byte strings are lists of bytes. Names in the wire formats compare without regard to the case of
ASCII letters; every other character compares exactly.
-/
namespace Switchboard

def utf8 (s : String) : List UInt8 := s.toUTF8.toList

theorem length_dropWhile_le {α : Type} (p : α → Bool) (l : List α) :
    (l.dropWhile p).length ≤ l.length := by
  have h := congrArg List.length (List.takeWhile_append_dropWhile (p := p) (l := l))
  simp only [List.length_append] at h
  omega

namespace Ascii

def lower (c : Char) : Char := if 'A' ≤ c ∧ c ≤ 'Z' then Char.ofNat (c.toNat + 32) else c

def eqFold (a b : String) : Bool := a.toList.map lower == b.toList.map lower

def isDigit (b : UInt8) : Bool := 48 ≤ b && b ≤ 57

def quoted (c : Char) : String :=
  let body := match c with
    | '\n' => "\\n"
    | '\r' => "\\r"
    | '\t' => "\\t"
    | '\\' => "\\\\"
    | '\'' => "\\'"
    | '\x00' => "\\0"
    | c => c.toString
  "'" ++ body ++ "'"

end Ascii

end Switchboard
