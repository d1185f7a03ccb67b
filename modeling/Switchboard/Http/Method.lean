import Switchboard.Http.Error
/-!
# Request methods

The nine standard methods. A method name is matched exactly, with its case.
-/
namespace Switchboard.Http

/-- A standard request method. -/
inductive Method where
  | get | head | post | put | delete | connect | options | trace | patch
  deriving Repr, DecidableEq

namespace Method

def all : List Method := [.get, .head, .post, .put, .delete, .connect, .options, .trace, .patch]

def name : Method → String
  | .get => "GET"
  | .head => "HEAD"
  | .post => "POST"
  | .put => "PUT"
  | .delete => "DELETE"
  | .connect => "CONNECT"
  | .options => "OPTIONS"
  | .trace => "TRACE"
  | .patch => "PATCH"

def ofName? (s : String) : Option Method := all.find? (·.name == s)

def parse (s : String) : Except HttpError Method :=
  match ofName? s with
  | some m => .ok m
  | none => .error (.invalidMethod s)

def bodyless : Method → Bool
  | .get | .head | .delete | .options | .trace => true
  | _ => false

end Method

end Switchboard.Http
