import Switchboard.Http.Method
import Switchboard.Web.Path
import Switchboard.Word
import Switchboard.Report
/-!
# Routes

A route joins a method and a path pattern to a handler. A pattern ending in `/*` matches the path
before the star and every path below it; any other pattern matches one path exactly. Of the
routes that match a request's path and method, an exact one wins over any prefix, a longer prefix
over a shorter, and of equals the first registered. Routes that match the path under other methods
make the answer "method not allowed" with those methods, each named once in registration order.
Registering a method and pattern again replaces the earlier route and moves it to the end.
-/
namespace Switchboard.Web

open Switchboard.Http

/-- A path pattern. -/
inductive Pattern where
  | exact (path : String)
  | below (base : String)
  deriving DecidableEq, Repr

namespace Pattern

def ofText (s : String) : Pattern :=
  if s.endsWith "/*" then .below (String.ofList (s.toList.dropLast.dropLast)) else .exact s

/-- How well the pattern matches a path: exact matches rank highest, prefixes by their length in
bytes; none when it does not match. -/
def rank? (p : Pattern) (path : String) : Option Nat :=
  match p with
  | .exact e => if e == path then some wordMax else none
  | .below base =>
    if base.toList.isPrefixOf path.toList then
      match path.toList.drop base.length with
      | [] | '/' :: _ => some base.utf8ByteSize
      | _ => none
    else none

end Pattern

/-- A route to a handler of type `κ`. -/
structure Route (κ : Type) where
  method : Method
  pattern : Pattern
  handler : κ

/-- The outcome of looking a request up. -/
inductive Resolution (κ : Type) where
  | found (handler : κ)
  | methodNotAllowed (allowed : List Method)
  | notFound

/-- Routes in registration order. -/
structure Router (κ : Type) where
  routes : List (Route κ) := []

namespace Router

variable {κ : Type}

def route (r : Router κ) (method : Method) (pattern : String) (handler : κ) : Router κ :=
  let p := Pattern.ofText pattern
  ⟨(r.routes.filter fun x => !(x.method == method && x.pattern == p)) ++ [⟨method, p, handler⟩]⟩

def size (r : Router κ) : Nat := r.routes.length

def resolve (r : Router κ) (method url : String) : Resolution κ :=
  let path := requestPath url
  let m := Method.ofName? method
  let (best, allowed) := r.routes.foldl (fun (acc : Option (Nat × κ) × List Method) x =>
    match x.pattern.rank? path with
    | none => acc
    | some k =>
      if some x.method != m then
        (acc.1, if acc.2.contains x.method then acc.2 else acc.2 ++ [x.method])
      else match acc.1 with
        | some (cur, _) => if cur < k then (some (k, x.handler), acc.2) else acc
        | none => (some (k, x.handler), acc.2)) (none, [])
  match best with
  | some (_, h) => .found h
  | none => if allowed.isEmpty then .notFound else .methodNotAllowed allowed

end Router

end Switchboard.Web

namespace Switchboard.Web

def Resolution.report {κ : Type} (f : κ → Report) : Resolution κ → Report
  | .found h => .record [("found", f h)]
  | .methodNotAllowed ms => .record [("method_not_allowed", Report.texts (ms.map (·.name)))]
  | .notFound => .text "not_found"

end Switchboard.Web
