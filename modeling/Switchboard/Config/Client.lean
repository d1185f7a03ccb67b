/-!
# Client settings

What a client peer is configured with. Durations are counted in nanoseconds. The spacing of
delayed sends is one over the send rate in seconds: the reciprocal is first rounded to the nearest
double, as a floating-point division gives it, and that double is then rounded to the nearest
nanosecond.
-/
namespace Switchboard

def nanosPerMilli : Nat := 1000000

def nanosPerSecond : Nat := 1000000000

def divRound (num den : Nat) : Nat :=
  let q := num / den
  let r := num % den
  if 2 * r < den then q else if den < 2 * r then q + 1 else if q % 2 = 0 then q else q + 1

def ceilLog2 (r : Nat) : Nat := (List.range 65).find? (r ≤ Nat.pow 2 ·) |>.getD 64

/-- Nanoseconds in the double nearest to `1 / r` seconds, for `r ≥ 1`. With `k = 52 + ⌈log₂ r⌉`
the double is `m / 2 ^ k` where `m` is `2 ^ k / r` rounded to an integer, which has 53
significant bits. -/
def reciprocalNanos (r : Nat) : Nat :=
  let k := 52 + ceilLog2 r
  let m := divRound (Nat.pow 2 k) r
  divRound (m * nanosPerSecond) (Nat.pow 2 k)

/-- The settings of a client peer. -/
structure ClientSettings where
  sendRate : Nat := 60
  defaultTimeoutSecs : Nat := 30
  pingIntervalMs : Nat := 1000
  maxRttSamples : Nat := 20
  receiveBufferSize : Nat := 8192
  tcpNoDelay : Bool := true
  connectTimeoutMs : Nat := 5000
  deriving Repr, DecidableEq

namespace ClientSettings

def updateInterval (s : ClientSettings) : Nat := reciprocalNanos (max s.sendRate 1)

def defaultTimeout (s : ClientSettings) : Nat := s.defaultTimeoutSecs * nanosPerSecond

def pingInterval (s : ClientSettings) : Option Nat :=
  if s.pingIntervalMs > 0 then some (s.pingIntervalMs * nanosPerMilli) else none

def problems (s : ClientSettings) : List String :=
  (if s.sendRate == 0 then ["client.send_rate must be > 0"] else []) ++
  (if s.maxRttSamples == 0 then ["client.max_rtt_samples must be > 0"] else [])

end ClientSettings

end Switchboard
