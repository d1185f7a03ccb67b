import Switchboard.Word
/-!
# Network statistics

Counters of bytes and packets sent and received and of sessions opened and closed. Live counters
are machine words that wrap around; adding two snapshots faults when a sum passes the word. A
statistics source is either one set of counters or an aggregate of sources, whose snapshot is the
sum of theirs from left to right.
-/
namespace Switchboard

/-- The values of the six counters at one moment. -/
structure Snapshot where
  bytesSent : Nat := 0
  bytesReceived : Nat := 0
  packetsSent : Nat := 0
  packetsReceived : Nat := 0
  sessionsConnected : Nat := 0
  sessionsDisconnected : Nat := 0
  deriving DecidableEq, Repr, Inhabited

namespace Snapshot

def sessionsActive (s : Snapshot) : Nat := s.sessionsConnected - s.sessionsDisconnected

def add? (a b : Snapshot) : Option Snapshot := do
  return { bytesSent := ← addWord? a.bytesSent b.bytesSent,
           bytesReceived := ← addWord? a.bytesReceived b.bytesReceived,
           packetsSent := ← addWord? a.packetsSent b.packetsSent,
           packetsReceived := ← addWord? a.packetsReceived b.packetsReceived,
           sessionsConnected := ← addWord? a.sessionsConnected b.sessionsConnected,
           sessionsDisconnected := ← addWord? a.sessionsDisconnected b.sessionsDisconnected }

end Snapshot

def wrapAdd (a b : Nat) : Nat := (a + b) % (wordMax + 1)

/-- What live counters can be told. -/
inductive Tick where
  | sent (bytes : Nat)
  | received (bytes : Nat)
  | connected
  | disconnected
  | reset
  deriving Repr

/-- Live counters; each counter wraps at the word. -/
structure Counters where
  values : Snapshot := {}
  deriving Repr

namespace Counters

def record (c : Counters) : Tick → Counters
  | .sent n => ⟨{ c.values with bytesSent := wrapAdd c.values.bytesSent n,
                                 packetsSent := wrapAdd c.values.packetsSent 1 }⟩
  | .received n => ⟨{ c.values with bytesReceived := wrapAdd c.values.bytesReceived n,
                                     packetsReceived := wrapAdd c.values.packetsReceived 1 }⟩
  | .connected => ⟨{ c.values with sessionsConnected := wrapAdd c.values.sessionsConnected 1 }⟩
  | .disconnected => ⟨{ c.values with sessionsDisconnected := wrapAdd c.values.sessionsDisconnected 1 }⟩
  | .reset => {}

def recordAll (c : Counters) (ts : List Tick) : Counters := ts.foldl record c

end Counters

/-- A statistics source: counters, or an aggregate of sources. -/
inductive Source where
  | counters (c : Snapshot)
  | aggregate (sources : List Source)
  deriving Repr, Inhabited

mutual
def Source.snapshot? : Source → Option Snapshot
  | .counters c => some c
  | .aggregate ss => Source.sumFrom? {} ss

def Source.sumFrom? (acc : Snapshot) : List Source → Option Snapshot
  | [] => some acc
  | s :: rest => do
    let v ← s.snapshot?
    let acc ← acc.add? v
    Source.sumFrom? acc rest
end

end Switchboard
