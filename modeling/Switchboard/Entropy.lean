/-!
# Random bytes

Nonces and masking keys come from the thread's random generator, of which nothing is assumed.
-/
namespace Switchboard

/-- A source of random bytes: the byte at each position of its stream, and how many it has given.
A source that is never drawn from, as a server's, may stay the stream of zeros. -/
structure Entropy where
  draw : Nat → UInt8 := fun _ => 0
  drawn : Nat := 0

namespace Entropy

def bytes (g : Entropy) (n : Nat) : List UInt8 × Entropy :=
  ((List.range n).map fun i => g.draw (g.drawn + i), { g with drawn := g.drawn + n })

end Entropy

end Switchboard
