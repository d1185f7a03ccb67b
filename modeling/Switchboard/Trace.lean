/-!
# Traces of state machines

A machine is a function from a state and an operation to an answer and the next state. Its trace
over a list of operations is the answer to each operation together with the state after it.
-/
namespace Switchboard

def runTrace {σ κ ρ : Type} (perform : σ → κ → ρ × σ) : σ → List κ → List (ρ × σ)
  | _, [] => []
  | s, c :: cs => let r := perform s c; r :: runTrace perform r.2 cs

def runFinal {σ κ ρ : Type} (perform : σ → κ → ρ × σ) : σ → List κ → σ
  | s, [] => s
  | s, c :: cs => runFinal perform (perform s c).2 cs

end Switchboard
