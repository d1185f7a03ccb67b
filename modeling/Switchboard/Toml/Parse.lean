import Switchboard.Toml.Value
import Switchboard.Toml.Number
/-!
# Reading TOML documents

A document is read line by line: pairs fill the table of the current section, and `[path]` and
`[[path]]` headers open sections for a table and for a new table of an array. What may extend a
table depends on how it was made; no key may be given twice, and nesting is bounded.
-/
namespace Switchboard.Toml

def endsValue (c : Char) : Bool :=
  isBlank c || c == '\n' || c == '\r' || c == ',' || c == ']' || c == '}' || c == '#'

def scalar? (tok : List Char) : Option Value :=
  if tok == ['t', 'r', 'u', 'e'] then some (.boolean true)
  else if tok == ['f', 'a', 'l', 's', 'e'] then some (.boolean false)
  else if isDateTime tok then some .datetime
  else match integer? tok with
    | some i => some (.integer i)
    | none => if isFloat tok then some .float else none

def token (cs : List Char) : List Char × List Char :=
  let tok := cs.takeWhile fun c => !endsValue c
  let rest := cs.drop tok.length
  match date? tok, rest with
  | some [], ' ' :: r =>
    if (fixedDigits 2 r).map (·.2.head?) == some (some ':') then
      let t := r.takeWhile fun c => !endsValue c
      (tok ++ 'T' :: t, r.drop t.length)
    else (tok, rest)
  | _, _ => (tok, rest)

def skipFiller (inComment : Bool) : List Char → Option (List Char)
  | [] => some []
  | '\n' :: r => skipFiller false r
  | '\r' :: '\n' :: r => skipFiller false r
  | c :: r =>
    if inComment then (if isControl c then none else skipFiller true r)
    else if isBlank c then skipFiller false r
    else if c == '#' then skipFiller true r
    else some (c :: r)

/-- Adds `path = v` to a table: the table before the last key is reached by a dotted walk, must
itself be dotted unless the path has one key, and must not hold the last key. -/
def Table.assign (t : Table) (path : List String) (v : Value) : Option Table := do
  let k ← path.getLast?
  let (t, _) ← Table.update true t false path.dropLast fun dotted items =>
    if dotted == path.dropLast.isEmpty || (items.lookup k).isSome then none
    else some (items ++ [(k, .value v)], ())
  return t

mutual
/-- A value at the front, inside `depth` arrays and inline tables; at most `fuel` values and
items are read. An array or inline table that would reach the nesting limit is refused. -/
def value (fuel depth : Nat) (cs : List Char) : Option (Value × List Char) :=
  match fuel with
  | 0 => none
  | f + 1 =>
    match cs with
    | '"' :: '"' :: '"' :: rest =>
      (multiString true '"' [] .plain (dropFirstNewline rest)).map fun p => (.string p.1, p.2)
    | '"' :: rest => (basicString [] rest).map fun p => (.string p.1, p.2)
    | '\'' :: '\'' :: '\'' :: rest =>
      (multiString false '\'' [] .plain (dropFirstNewline rest)).map fun p => (.string p.1, p.2)
    | '\'' :: rest => (literalString [] rest).map fun p => (.string p.1, p.2)
    | '[' :: rest => if depth + 1 < nestingLimit then arrayItems f (depth + 1) [] rest else none
    | '{' :: rest => if depth + 1 < nestingLimit then inlineTable f (depth + 1) [] true rest else none
    | _ =>
      let (tok, rest) := token cs
      (scalar? tok).map fun v => (v, rest)

def arrayItems (fuel depth : Nat) (acc : List Value) (cs : List Char) : Option (Value × List Char) :=
  match fuel with
  | 0 => none
  | f + 1 => do
    match ← skipFiller false cs with
    | ']' :: rest => some (.array acc.reverse, rest)
    | cs =>
      let (v, r) ← value f depth cs
      match ← skipFiller false r with
      | ',' :: r => arrayItems f depth (v :: acc) r
      | ']' :: r => some (.array (v :: acc).reverse, r)
      | _ => none

/-- The entries of an inline table after its `{` (`first`) or after a comma; the table lies
`depth` deep. -/
def inlineTable (fuel depth : Nat) (t : Table) (first : Bool) (cs : List Char) : Option (Value × List Char) :=
  match fuel with
  | 0 => none
  | f + 1 =>
    match skipBlanks cs with
    | '}' :: rest => if first then some (.table (Node.entriesValue t), rest) else none
    | cs => do
      let (path, r) ← key cs
      match skipBlanks r with
      | '=' :: r =>
        let (v, r) ← value f depth (skipBlanks r)
        let t ← t.assign path v
        match skipBlanks r with
        | ',' :: r => inlineTable f depth t false r
        | '}' :: r => some (.table (Node.entriesValue t), r)
        | _ => none
      | _ => none
end

/-- A document being read: the tables joined so far, and the current section's table, path and
kind. The first section, before any header, has the empty path. -/
structure Reader where
  root : Table := []
  current : Table := []
  path : List String := []
  isArray : Bool := false

namespace Reader

def finish (r : Reader) : Option Reader := do
  match r.path.getLast? with
  | none => return { root := r.current }
  | some k =>
    let (root, _) ← Table.update false r.root false r.path.dropLast fun _ items =>
      match items.lookup k, r.isArray with
      | none, true => some (items.put k (.tables [r.current]), ())
      | some (.tables ts), true => some (items.put k (.tables (ts ++ [r.current])), ())
      | none, false => some (items.put k (.table false false r.current), ())
      | some (.table true _ _), false => some (items.put k (.table false false r.current), ())
      | _, _ => none
    return { root }

def table (r : Reader) (path : List String) : Option Reader := do
  let r ← r.finish
  let k ← path.getLast?
  let (root, current) ← Table.update false r.root false path.dropLast fun _ items =>
    match items.lookup k with
    | some (.table true false sub) => some (items.erase k, sub)
    | some _ => none
    | none => some (items, [])
  return { root, current, path }

def arrayTable (r : Reader) (path : List String) : Option Reader := do
  let r ← r.finish
  let k ← path.getLast?
  let (root, _) ← Table.update false r.root false path.dropLast fun _ items =>
    match items.lookup k with
    | some (.tables _) => some (items, ())
    | some _ => none
    | none => some (items.put k (.tables []), ())
  return { root, path, isArray := true }

def assign (r : Reader) (path : List String) (v : Value) : Option Reader := do
  return { r with current := ← r.current.assign path v }

end Reader

def header (close : List Char) (cs : List Char) : Option (List String × List Char) := do
  let (path, rest) ← key (skipBlanks cs)
  let rest := skipBlanks rest
  if rest.take close.length == close then
    return (path, ← lineEnd (rest.drop close.length))
  else none

def lines (fuel : Nat) (r : Reader) (cs : List Char) : Option Reader :=
  match fuel with
  | 0 => none
  | f + 1 =>
    match skipBlanks cs with
    | [] => r.finish
    | '[' :: '[' :: rest => do
      let (path, rest) ← header [']', ']'] rest
      lines f (← r.arrayTable path) rest
    | '[' :: rest => do
      let (path, rest) ← header [']'] rest
      lines f (← r.table path) rest
    | cs@('#' :: _) | cs@('\n' :: _) | cs@('\r' :: _) => do lines f r (← lineEnd cs)
    | cs => do
      let (path, rest) ← key cs
      match skipBlanks rest with
      | '=' :: rest =>
        let (v, rest) ← value (rest.length + 1) 0 (skipBlanks rest)
        lines f (← r.assign path v) (← lineEnd rest)
      | _ => none

/-- The entries of a TOML document, or none when the text is not TOML. A byte order mark at the
start is skipped. -/
def parse (text : String) : Option (List (String × Value)) :=
  let cs := match text.toList with
    | '\uFEFF' :: r => r
    | r => r
  (lines (cs.length + 1) {} cs).map fun r => Node.entriesValue r.root

end Switchboard.Toml
