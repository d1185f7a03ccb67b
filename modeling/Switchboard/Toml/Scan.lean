import Switchboard.Text.Ascii
/-!
# TOML lexical rules

Scanners for the pieces of a TOML line, each on the characters that are left and answering what
it read with the characters after it, or none when the text breaks the rules. They follow
TOML 1.0: blanks are spaces and tabs; a line ends with LF or CR LF; comments and strings admit no
control character but tab; basic strings know the escapes `\b \t \n \f \r \" \\ \uXXXX
\UXXXXXXXX`; integers fit in 64 signed bits; a date-time is a date, a time, or both joined by `T`
or a space, with an optional offset.
-/
namespace Switchboard.Toml

def isBlank (c : Char) : Bool := c == ' ' || c == '\t'

def isControl (c : Char) : Bool := (c.toNat < 32 && c != '\t') || c.toNat == 127

def isBareKey (c : Char) : Bool :=
  ('A' ≤ c && c ≤ 'Z') || ('a' ≤ c && c ≤ 'z') || ('0' ≤ c && c ≤ '9') || c == '_' || c == '-'

def isDigitChar (c : Char) : Bool := '0' ≤ c && c ≤ '9'

def hexDigit? (c : Char) : Option Nat :=
  if isDigitChar c then some (c.toNat - 48)
  else if 'a' ≤ c && c ≤ 'f' then some (c.toNat - 87)
  else if 'A' ≤ c && c ≤ 'F' then some (c.toNat - 55)
  else none

def hexValue? (cs : List Char) : Option Nat :=
  cs.foldlM (fun acc c => (hexDigit? c).map (acc * 16 + ·)) 0

def skipBlanks (cs : List Char) : List Char := cs.dropWhile isBlank

def newline? : List Char → Option (List Char)
  | '\n' :: rest => some rest
  | '\r' :: '\n' :: rest => some rest
  | _ => none

def commentBody : List Char → Option (List Char)
  | [] => some []
  | '\n' :: rest => some ('\n' :: rest)
  | '\r' :: '\n' :: rest => some ('\r' :: '\n' :: rest)
  | c :: rest => if isControl c then none else commentBody rest

def lineEnd (cs : List Char) : Option (List Char) :=
  match skipBlanks cs with
  | [] => some []
  | '#' :: rest => do
    let r ← commentBody rest
    match r with
    | [] => some []
    | r => newline? r
  | r => newline? r

def unicodeScalar? (n : Nat) : Option Char :=
  if n < 0xD800 || (0xDFFF < n && n ≤ 0x10FFFF) then some (Char.ofNat n) else none

def escape? : List Char → Option (Char × List Char)
  | 'b' :: rest => some ('\x08', rest)
  | 't' :: rest => some ('\t', rest)
  | 'n' :: rest => some ('\n', rest)
  | 'f' :: rest => some ('\x0c', rest)
  | 'r' :: rest => some ('\r', rest)
  | '"' :: rest => some ('"', rest)
  | '\\' :: rest => some ('\\', rest)
  | 'u' :: a :: b :: c :: d :: rest => do
    let n ← hexValue? [a, b, c, d]
    return (← unicodeScalar? n, rest)
  | 'U' :: a :: b :: c :: d :: e :: f :: g :: h :: rest => do
    let n ← hexValue? [a, b, c, d, e, f, g, h]
    return (← unicodeScalar? n, rest)
  | _ => none

def basicString (acc : List Char) : List Char → Option (String × List Char)
  | [] => none
  | '"' :: rest => some (String.ofList acc.reverse, rest)
  | '\\' :: 'b' :: rest => basicString ('\x08' :: acc) rest
  | '\\' :: 't' :: rest => basicString ('\t' :: acc) rest
  | '\\' :: 'n' :: rest => basicString ('\n' :: acc) rest
  | '\\' :: 'f' :: rest => basicString ('\x0c' :: acc) rest
  | '\\' :: 'r' :: rest => basicString ('\r' :: acc) rest
  | '\\' :: '"' :: rest => basicString ('"' :: acc) rest
  | '\\' :: '\\' :: rest => basicString ('\\' :: acc) rest
  | '\\' :: 'u' :: a :: b :: c :: d :: rest =>
    match (hexValue? [a, b, c, d]).bind unicodeScalar? with
    | some ch => basicString (ch :: acc) rest
    | none => none
  | '\\' :: 'U' :: a :: b :: c :: d :: e :: f :: g :: h :: rest =>
    match (hexValue? [a, b, c, d, e, f, g, h]).bind unicodeScalar? with
    | some ch => basicString (ch :: acc) rest
    | none => none
  | '\\' :: _ => none
  | c :: rest => if isControl c then none else basicString (c :: acc) rest

def literalString (acc : List Char) : List Char → Option (String × List Char)
  | [] => none
  | '\'' :: rest => some (String.ofList acc.reverse, rest)
  | c :: rest => if isControl c then none else literalString (c :: acc) rest

/-- How a multi-line basic string is being read: plainly, after a backslash that may end a
line, or while dropping the blanks and newlines after such a line end. -/
inductive LineMode where
  | plain
  | afterBackslash
  | trimming
  deriving DecidableEq

def LineMode.weight : LineMode → Nat
  | .trimming => 1
  | _ => 0

/-- The rest of a multi-line string after its opening delimiter of three `quote` characters.
A run of three to five quotes closes it, the quotes beyond three being text; a run of six or more
fails, as its last quotes follow the string. Newlines are LF or CR LF, and both read as LF. With `escapes` the basic
escapes apply and a backslash followed by blanks and a newline drops the blanks and newlines
after it. -/
def multiString (escapes : Bool) (quote : Char) (acc : List Char) (mode : LineMode) (cs : List Char) :
    Option (String × List Char) :=
  match cs with
  | [] => none
  | c :: rest =>
    let crlf := c == '\r' && rest.head? == some '\n'
    match mode with
    | .afterBackslash =>
      if isBlank c then multiString escapes quote acc .afterBackslash rest
      else if c == '\n' then multiString escapes quote acc .trimming rest
      else if crlf then multiString escapes quote acc .trimming rest.tail
      else none
    | .trimming =>
      if isBlank c || c == '\n' then multiString escapes quote acc .trimming rest
      else if crlf then multiString escapes quote acc .trimming rest.tail
      else multiString escapes quote acc .plain (c :: rest)
    | .plain =>
      if c == quote && rest.take 2 == [quote, quote] then
        let r := rest.drop 2
        let extra := (r.takeWhile (· == quote)).length
        if extra ≤ 2 then some (String.ofList (acc.reverse ++ List.replicate extra quote), r.drop extra)
        else none
      else if c == '\n' then multiString escapes quote ('\n' :: acc) .plain rest
      else if crlf then multiString escapes quote ('\n' :: acc) .plain rest.tail
      else if c == '\r' then none
      else if escapes && c == '\\' then
        match rest.head? with
        | some b =>
          if isBlank b || b == '\n' || b == '\r' then multiString escapes quote acc .afterBackslash rest
          else match escape? rest with
            | some (e, r2) =>
              if r2.length < rest.length then multiString escapes quote (e :: acc) .plain r2 else none
            | none => none
        | none => none
      else if isControl c then none
      else multiString escapes quote (c :: acc) .plain rest
termination_by 2 * cs.length + mode.weight
decreasing_by all_goals simp_all [LineMode.weight] <;> omega

def dropFirstNewline (cs : List Char) : List Char := (newline? cs).getD cs

def simpleKey : List Char → Option (String × List Char)
  | '"' :: rest => basicString [] rest
  | '\'' :: rest => literalString [] rest
  | cs =>
    let k := cs.takeWhile isBareKey
    if k.isEmpty then none else some (String.ofList k, cs.drop k.length)

/-- A dotted key: key parts joined by dots, blanks allowed around the dots. At most `fuel` parts
are read. -/
def dottedKey (fuel : Nat) (cs : List Char) : Option (List String × List Char) := do
  let (k, rest) ← simpleKey cs
  match fuel, skipBlanks rest with
  | f + 1, '.' :: r =>
    let (ks, r) ← dottedKey f (skipBlanks r)
    return (k :: ks, r)
  | _, _ => return ([k], rest)

/-- How deep keys and values may nest: a key has fewer parts, and a value lies inside fewer
arrays and inline tables. Deeper text is refused, so that reading it never recurses without
bound. -/
def nestingLimit : Nat := 80

/-- A key, read with as many parts as the text could hold, refused when it has as many parts as
the nesting limit. -/
def key (cs : List Char) : Option (List String × List Char) := do
  let (ks, rest) ← dottedKey cs.length cs
  if ks.length < nestingLimit then some (ks, rest) else none

end Switchboard.Toml
