import Switchboard.Text.Ascii
/-!
# Header and cookie fields

Fields are name/value pairs kept in arrival order; a name may occur more than once. Header names
match without regard to ASCII case, cookie names match exactly. A look-up answers the first
match.
-/
namespace Switchboard.Http

/-- Name/value pairs in arrival order; `foldCase` says whether names match regardless of ASCII
case. -/
structure Fields (foldCase : Bool) where
  entries : List (String × String) := []
  deriving Repr, DecidableEq

abbrev Headers := Fields true

abbrev Cookies := Fields false

namespace Fields

variable {fc : Bool}

def nameMatches (fc : Bool) (stored wanted : String) : Bool :=
  if fc then Ascii.eqFold stored wanted else stored == wanted

def insert (f : Fields fc) (name value : String) : Fields fc := ⟨f.entries ++ [(name, value)]⟩

def insertAll (f : Fields fc) (pairs : List (String × String)) : Fields fc := ⟨f.entries ++ pairs⟩

def get? (f : Fields fc) (name : String) : Option String :=
  (f.entries.find? (nameMatches fc ·.1 name)).map (·.2)

def getAll (f : Fields fc) (name : String) : List String :=
  (f.entries.filter (nameMatches fc ·.1 name)).map (·.2)

def getIndex? (f : Fields fc) (i : Nat) : Option (String × String) := f.entries[i]?

def contains (f : Fields fc) (name : String) : Bool := (f.get? name).isSome

def size (f : Fields fc) : Nat := f.entries.length

def isEmpty (f : Fields fc) : Bool := f.entries.isEmpty

def clear (_ : Fields fc) : Fields fc := ⟨[]⟩

def render (f : Fields fc) : String :=
  let sep := if fc then ": " else "="
  String.join (f.entries.map fun e => e.1 ++ sep ++ e.2 ++ "\n")

end Fields

end Switchboard.Http
