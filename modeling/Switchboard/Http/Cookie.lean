import Switchboard.Http.Fields
import Switchboard.Text.Utf8
/-!
# Cookies

Reading a `Cookie` value into pairs, where tokens are separated by blanks, `=` and `;` and a pair
followed by a blank before its `;` is lost, and writing a `Set-Cookie` value: the pair, its age,
then the optional attributes in a fixed order.
-/
namespace Switchboard.Http

/-- Where the cookie scanner stands: whether the next token is a name, whether it is inside a
token and where that token began, and the last name and value ranges. -/
structure CookieScan where
  expectName : Bool := true
  inToken : Bool := false
  start : Nat := 0
  name : Nat × Nat := (0, 0)
  value : Nat × Nat := (0, 0)
  pairs : List ((Nat × Nat) × (Nat × Nat)) := []

namespace CookieScan

def nonEmpty (r : Nat × Nat) : Bool := r.1 < r.2

def close (s : CookieScan) (j : Nat) : CookieScan :=
  if s.expectName then { s with name := (s.start, j) } else { s with value := (s.start, j) }

def step (s : CookieScan) (j : Nat) (b : UInt8) : CookieScan :=
  if b == 32 || b == 61 || b == 59 then
    let s :=
      if s.inToken then
        let s := s.close j
        if b == 59 && nonEmpty s.name && nonEmpty s.value then
          { s with pairs := s.pairs ++ [(s.name, s.value)], name := (j, j), value := (j, j) }
        else s
      else s
    let s := { s with inToken := false }
    if b == 61 then { s with expectName := false }
    else if b == 59 then { s with expectName := true } else s
  else if s.inToken then s
  else { s with start := j, inToken := true }

def run (s : CookieScan) (j : Nat) : List UInt8 → CookieScan
  | [] => s
  | b :: rest => run (s.step j b) (j + 1) rest

def finish (s : CookieScan) (len : Nat) : CookieScan :=
  if s.inToken then
    let s := s.close len
    if nonEmpty s.name && nonEmpty s.value then { s with pairs := s.pairs ++ [(s.name, s.value)] }
    else s
  else s

end CookieScan

def slice (bs : List UInt8) (r : Nat × Nat) : List UInt8 := (bs.drop r.1).take (r.2 - r.1)

def scanCookies (value : List UInt8) : List (String × String) :=
  let s := ((({} : CookieScan).run 0 value).finish value.length)
  s.pairs.map fun p => (Utf8.lenient (slice value p.1), Utf8.lenient (slice value p.2))

/-- A cookie set by a response, with its attributes. -/
structure SetCookie where
  name : String
  value : String
  maxAge : Nat := 86400
  domain : Option String := none
  path : Option String := none
  secure : Bool := false
  strict : Bool := false
  httpOnly : Bool := false
  deriving Repr, DecidableEq

/-- The `Set-Cookie` value: the pair, `Max-Age`, then `Domain`, `Path`, `Secure`,
`SameSite=Strict` and `HttpOnly` where they apply. -/
def SetCookie.render (c : SetCookie) : String :=
  s!"{c.name}={c.value}; Max-Age={c.maxAge}"
    ++ (match c.domain with | some d => "; Domain=" ++ d | none => "")
    ++ (match c.path with | some p => "; Path=" ++ p | none => "")
    ++ (if c.secure then "; Secure" else "")
    ++ (if c.strict then "; SameSite=Strict" else "")
    ++ (if c.httpOnly then "; HttpOnly" else "")

end Switchboard.Http
