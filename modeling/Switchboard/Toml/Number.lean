import Switchboard.Toml.Scan
/-!
# TOML numbers and date-times

The unquoted scalars of TOML 1.0. A decimal integer has an optional sign and no leading zero;
hexadecimal, octal and binary integers have a lowercase prefix and no sign; underscores stand
only between digits; every integer fits in 64 signed bits. A float is a decimal integer part with
a fraction, an exponent or both, or a signed or unsigned `inf` or `nan`; a decimal that rounds
to positive infinity is refused. A date has a four-digit
year and a day that exists in its month; a time has hours to 23, minutes to 59 and seconds to 60,
with an optional fraction; an offset is `Z` or a signed hour and minute.
-/
namespace Switchboard.Toml

def digitRun (isDigit : Char → Bool) (cs : List Char) : Bool :=
  match cs.head?, cs.getLast? with
  | some a, some b =>
    isDigit a && isDigit b && cs.all (fun c => isDigit c || c == '_') &&
      !((cs.zip cs.tail).any fun p => p.1 == '_' && p.2 == '_')
  | _, _ => false

def digitsValue (base : Nat) (cs : List Char) : Nat :=
  (cs.filter (· != '_')).foldl (fun acc c => acc * base + (hexDigit? c).getD 0) 0

def intLow : Int := -(Int.pow 2 63)

def intHigh : Int := Int.pow 2 63 - 1

def splitSign : List Char → Int × List Char
  | '+' :: r => (1, r)
  | '-' :: r => (-1, r)
  | r => (1, r)

/-- Whether an unsigned decimal integer is well formed: a lone zero or digits without a leading
zero. -/
def unsignedDecimal (cs : List Char) : Bool :=
  digitRun isDigitChar cs && (cs.head? != some '0' || cs == ['0'])

def isBinary (c : Char) : Bool := c == '0' || c == '1'

def isOctal (c : Char) : Bool := '0' ≤ c && c ≤ '7'

def isHex (c : Char) : Bool := (hexDigit? c).isSome

def integer? (tok : List Char) : Option Int :=
  let radix (base : Nat) (isDigit : Char → Bool) (cs : List Char) : Option Int :=
    if digitRun isDigit cs then
      let v : Int := digitsValue base cs
      if v ≤ intHigh then some v else none
    else none
  match tok with
  | '0' :: 'x' :: cs => radix 16 isHex cs
  | '0' :: 'o' :: cs => radix 8 isOctal cs
  | '0' :: 'b' :: cs => radix 2 isBinary cs
  | _ =>
    let (sign, body) := splitSign tok
    if unsignedDecimal body then
      let v : Int := sign * digitsValue 10 body
      if intLow ≤ v && v ≤ intHigh then some v else none
    else none

def exponent? (cs : List Char) : Option Int :=
  let (sign, digits) := splitSign cs
  if digitRun isDigitChar digits then some (sign * digitsValue 10 digits) else none

/-- An unsigned decimal float as the whole number its digits spell and the power of ten that
scales it, when the text has the form of one: an integer part, then a fraction, an exponent or
both. -/
def decimalFloat? (body : List Char) : Option (Nat × Int) :=
  let whole := body.takeWhile fun c => c != '.' && c != 'e' && c != 'E'
  if !unsignedDecimal whole then none
  else match body.drop whole.length with
    | '.' :: r =>
      let frac := r.takeWhile fun c => c != 'e' && c != 'E'
      if !digitRun isDigitChar frac then none
      else
        let m := digitsValue 10 (whole ++ frac)
        let shift : Int := (frac.filter (· != '_')).length
        match r.drop frac.length with
        | [] => some (m, -shift)
        | _ :: e => (exponent? e).map fun x => (m, x - shift)
    | 'e' :: e | 'E' :: e => (exponent? e).map fun x => (digitsValue 10 whole, x)
    | _ => none

/-- The largest finite double plus half a unit in its last place. A decimal at or above it is
nearer to infinity than to any finite double, or at an even tie, and so rounds to infinity. -/
def overflowBound : Nat := Nat.pow 2 1024 - Nat.pow 2 970

/-- Whether the decimal `m · 10^e` rounds to infinity as a double. Its leading digit's place
settles all but the values from `10^308` to `10^309`, which are compared exactly. -/
def roundsToInfinity (m : Nat) (e : Int) : Bool :=
  if m == 0 then false
  else
    let lead : Int := ((Nat.toDigits 10 m).length : Int) - 1 + e
    if 309 ≤ lead then true
    else if lead ≤ 307 then false
    else if 0 ≤ e then overflowBound ≤ m * Nat.pow 10 e.toNat
    else overflowBound * Nat.pow 10 (-e).toNat ≤ m

/-- Whether a token is a float. A decimal that rounds to positive infinity is refused; one that
rounds to negative infinity stands. -/
def isFloat (tok : List Char) : Bool :=
  let (sign, body) := splitSign tok
  if body == ['i', 'n', 'f'] || body == ['n', 'a', 'n'] then true
  else match decimalFloat? body with
    | some (m, e) => sign < 0 || !roundsToInfinity m e
    | none => false

def fixedDigits (n : Nat) (cs : List Char) : Option (Nat × List Char) :=
  let d := cs.take n
  if d.length == n && d.all isDigitChar then some (digitsValue 10 d, cs.drop n) else none

def leapYear (y : Nat) : Bool := y % 4 == 0 && (y % 100 != 0 || y % 400 == 0)

def monthDays (y m : Nat) : Nat :=
  if m == 2 then (if leapYear y then 29 else 28)
  else if m == 4 || m == 6 || m == 9 || m == 11 then 30 else 31

def date? (cs : List Char) : Option (List Char) := do
  let (y, r) ← fixedDigits 4 cs
  let r ← match r with | '-' :: r => some r | _ => none
  let (m, r) ← fixedDigits 2 r
  let r ← match r with | '-' :: r => some r | _ => none
  let (d, r) ← fixedDigits 2 r
  if 1 ≤ m && m ≤ 12 && 1 ≤ d && d ≤ monthDays y m then some r else none

def time? (cs : List Char) : Option (List Char) := do
  let (h, r) ← fixedDigits 2 cs
  let r ← match r with | ':' :: r => some r | _ => none
  let (m, r) ← fixedDigits 2 r
  let r ← match r with | ':' :: r => some r | _ => none
  let (s, r) ← fixedDigits 2 r
  if h ≤ 23 && m ≤ 59 && s ≤ 60 then
    match r with
    | '.' :: f =>
      let ds := f.takeWhile isDigitChar
      if ds.isEmpty then none else some (f.drop ds.length)
    | r => some r
  else none

def offset (cs : List Char) : Bool :=
  match cs with
  | ['Z'] | ['z'] => true
  | '+' :: r | '-' :: r =>
    match fixedDigits 2 r with
    | some (h, ':' :: r) =>
      match fixedDigits 2 r with
      | some (m, []) => h ≤ 23 && m ≤ 59
      | _ => false
    | _ => false
  | _ => false

def isDateTime (tok : List Char) : Bool :=
  match date? tok with
  | some [] => true
  | some (d :: r) =>
    (d == 'T' || d == 't') &&
      match time? r with
      | some [] => true
      | some o => offset o
      | none => false
  | none => time? tok == some []

end Switchboard.Toml
