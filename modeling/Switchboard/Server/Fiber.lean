/-!
# Worker pools

A fiber is a fixed number of workers, each running the jobs of its own queue, first in, first out.
`enqueue` hands jobs to the workers in turn, counting them in a word that wraps around;
`enqueueKeyed` hands every job of one key to the same worker, so those run one at a time in the
order they came. Once shut down a fiber takes no job, and the jobs already queued still run.
-/
namespace Switchboard.Server

/-- A worker pool: each worker's queue, the counter that picks the next worker, and whether the
pool still takes jobs. -/
structure Fiber (α : Type) where
  queues : List (List α)
  next : Nat := 0
  accepting : Bool := true
  deriving Repr

namespace Fiber

variable {α : Type}

def create (threads : Nat) : Fiber α := { queues := List.replicate (max threads 1) [] }

def send (f : Fiber α) (index : Nat) (job : α) : Bool × Fiber α :=
  if f.accepting && index < f.queues.length then
    (true, { f with queues := f.queues.modify index (· ++ [job]) })
  else (false, f)

def enqueue (f : Fiber α) (job : α) : Bool × Fiber α :=
  { f with next := (f.next + 1) % Nat.pow 2 64 }.send (f.next % f.queues.length) job

def enqueueKeyed (f : Fiber α) (key : Nat) (job : α) : Bool × Fiber α :=
  f.send (key % f.queues.length) job

def take (f : Fiber α) (index : Nat) : Option (α × Fiber α) :=
  match f.queues[index]? with
  | some (job :: rest) => some (job, { f with queues := f.queues.set index rest })
  | _ => none

def shutdown (f : Fiber α) : Fiber α := { f with accepting := false }

def waiting (f : Fiber α) : List α := f.queues.flatten

end Fiber

end Switchboard.Server
