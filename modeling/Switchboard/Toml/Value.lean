/-!
# TOML values and tables

A document is a table of strings, integers, floats, booleans, date-times, arrays and tables. While
it is read a table remembers how it came to be, which decides what may extend it, and
`Table.update` walks a key path to the table it changes.
-/
namespace Switchboard.Toml

/-- A value written after `=`. Floats and date-times are kept only as present. -/
inductive Value where
  | string (s : String)
  | integer (i : Int)
  | float
  | boolean (b : Bool)
  | datetime
  | array (items : List Value)
  | table (entries : List (String × Value))
  deriving Repr, Inhabited

/-- An entry of a table under construction. -/
inductive Node where
  | value (v : Value)
  | table (implicit dotted : Bool) (entries : List (String × Node))
  | tables (items : List (List (String × Node)))
  deriving Repr, Inhabited

abbrev Table := List (String × Node)

mutual
def Node.toValue : Node → Value
  | .value v => v
  | .table _ _ entries => .table (Node.entriesValue entries)
  | .tables items => .array (Node.itemsValue items)

def Node.entriesValue : List (String × Node) → List (String × Value)
  | [] => []
  | (k, n) :: rest => (k, n.toValue) :: Node.entriesValue rest

def Node.itemsValue : List (List (String × Node)) → List Value
  | [] => []
  | t :: rest => .table (Node.entriesValue t) :: Node.itemsValue rest
end

namespace Table

def put (t : Table) (k : String) (n : Node) : Table :=
  if t.any (·.1 == k) then t.map fun e => if e.1 == k then (k, n) else e else t ++ [(k, n)]

def erase (t : Table) (k : String) : Table := t.filter (·.1 != k)

/-- Walks `path` from `t` and applies `f` to the table at its end, which `f` is told is dotted or
not. With `dotted`, the walk makes dotted tables and passes only implicit ones. -/
def update {α : Type} (dotted : Bool) (t : Table) (here : Bool) (path : List String)
    (f : Bool → Table → Option (Table × α)) : Option (Table × α) :=
  match path with
  | [] => f here t
  | k :: ks =>
    match t.lookup k with
    | none => do
      let (sub, a) ← update dotted [] dotted ks f
      return (t.put k (.table true dotted sub), a)
    | some (.value _) => none
    | some (.tables items) =>
      match items.getLast? with
      | some last => do
        let (sub, a) ← update dotted last false ks f
        return (t.put k (.tables (items.dropLast ++ [sub])), a)
      | none => none
    | some (.table imp dot sub) =>
      if dotted && !imp then none
      else do
        let (sub, a) ← update dotted sub dot ks f
        return (t.put k (.table imp dot sub), a)

end Table

end Switchboard.Toml
