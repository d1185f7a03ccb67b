/-!
# Lenient UTF-8 decoding

Bytes become text by the rules of RFC 3629. A well-formed sequence is its character. The longest
start of a sequence that cannot be completed becomes one U+FFFD, and decoding resumes at the byte
that ruled the sequence out, so no byte that could begin a character is ever swallowed.
-/
namespace Switchboard.Utf8

def replacement : Char := '�'

/-- What a lead byte announces: the continuation bytes that follow, the range allowed for the
first of them, and the payload bits the lead byte carries. -/
structure Lead where
  tails : Nat
  low : UInt8
  high : UInt8
  bits : Nat

/-- The lead bytes of RFC 3629 §4. The narrowed ranges after E0, ED, F0 and F4 exclude overlong
forms, surrogates and code points above U+10FFFF. -/
def lead? (b : UInt8) : Option Lead :=
  let n := b.toNat
  if 0xC2 ≤ n ∧ n ≤ 0xDF then some ⟨1, 0x80, 0xBF, n % 32⟩
  else if n = 0xE0 then some ⟨2, 0xA0, 0xBF, n % 16⟩
  else if 0xE1 ≤ n ∧ n ≤ 0xEC then some ⟨2, 0x80, 0xBF, n % 16⟩
  else if n = 0xED then some ⟨2, 0x80, 0x9F, n % 16⟩
  else if 0xEE ≤ n ∧ n ≤ 0xEF then some ⟨2, 0x80, 0xBF, n % 16⟩
  else if n = 0xF0 then some ⟨3, 0x90, 0xBF, n % 8⟩
  else if 0xF1 ≤ n ∧ n ≤ 0xF3 then some ⟨3, 0x80, 0xBF, n % 8⟩
  else if n = 0xF4 then some ⟨3, 0x80, 0x8F, n % 8⟩
  else none

/-- Reads `need` continuation bytes, the first within `low`..`high` and the others within
80..BF. Gives the character when all are there, and in every case the bytes not consumed. -/
def readTails : Nat → Nat → UInt8 → UInt8 → (bs : List UInt8) →
    Option Char × { r : List UInt8 // r.length ≤ bs.length }
  | 0, acc, _, _, bs => (some (Char.ofNat acc), ⟨bs, Nat.le_refl _⟩)
  | _ + 1, _, _, _, [] => (none, ⟨[], Nat.le_refl _⟩)
  | n + 1, acc, low, high, b :: rest =>
    if low ≤ b ∧ b ≤ high then
      let r := readTails n (acc * 64 + b.toNat % 64) 0x80 0xBF rest
      (r.1, ⟨r.2.1, by have := r.2.2; simp only [List.length_cons]; omega⟩)
    else (none, ⟨b :: rest, Nat.le_refl _⟩)

def chars : List UInt8 → List Char
  | [] => []
  | b :: rest =>
    if b < 0x80 then Char.ofNat b.toNat :: chars rest
    else
      match lead? b with
      | none => replacement :: chars rest
      | some l =>
        match readTails l.tails l.bits l.low l.high rest with
        | (c, ⟨r, hr⟩) =>
          have : r.length < rest.length + 1 := Nat.lt_succ_of_le hr
          (c.getD replacement) :: chars r
termination_by bs => bs.length
decreasing_by all_goals (simp only [List.length_cons]; omega)

def lenient (bs : List UInt8) : String := String.ofList (chars bs)

end Switchboard.Utf8
