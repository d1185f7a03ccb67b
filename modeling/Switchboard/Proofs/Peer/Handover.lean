import Switchboard.Proofs.Peer.Service
/-!
# A response that arrives while its request is being handed over

A transmission hands the request to the transport before adding it to the waiting list
(`transmit_eq_enlist_handOver`), so a response arriving between the two finds no request, is
answered `false` (`onResponse_between_halves`), and the request later times out
(`response_in_the_gap_is_lost`).
-/
namespace Switchboard.Peer

namespace ClientPeer

variable {τ κ : Type}

theorem onResponse_of_unanswered (p : ClientPeer τ κ) (r : Response) (now : Nat)
    (unanswered : ∀ q ∈ p.waiting, q.request.requestId = r.requestId → q.hasResponse = true) :
    p.onResponse r now = (false, p) := by
  have none_found : p.waiting.findIdx? (fun q => q.request.requestId == r.requestId && !q.hasResponse) =
      none := by
    rw [List.findIdx?_eq_none_iff]
    intro q mem
    by_cases same : q.request.requestId = r.requestId
    · simp [same, unanswered q mem same]
    · simp [same]
  simp only [onResponse, none_found]

variable [Transport τ]

/-- The first half of a transmission: the request, marked sent, goes to the transport, and a failed
send settles it with an error. The peer does not list it as waiting yet. -/
def handOver (p : ClientPeer τ κ) (q : Pending κ) (now : Nat) : ClientPeer τ κ × Pending κ :=
  let q := q.markSent now
  let (failure, transport) := Transport.send p.transport (.request q.request)
  let q := match failure with
    | some e => (q.fail .error e.message now).2
    | none => q
  ({ p with transport }, q)

def enlist (p : ClientPeer τ κ) (q : Pending κ) : ClientPeer τ κ := { p with waiting := p.waiting ++ [q] }

theorem transmit_eq_enlist_handOver (p : ClientPeer τ κ) (q : Pending κ) (now : Nat) :
    p.transmit q now = (p.handOver q now).1.enlist (p.handOver q now).2 := rfl

@[simp] theorem waiting_handOver (p : ClientPeer τ κ) (q : Pending κ) (now : Nat) :
    (p.handOver q now).1.waiting = p.waiting := rfl

/-- Between the two halves of a transmission, a response sees only the requests that were waiting
before it. When none of them is open with the response's id, the response is answered `false` and
settles nothing, and the transmission then ends as if the response had never come. -/
theorem onResponse_between_halves (p : ClientPeer τ κ) (q : Pending κ) (now t : Nat) (r : Response)
    (unanswered : ∀ q' ∈ p.waiting, q'.request.requestId = r.requestId → q'.hasResponse = true) :
    (p.handOver q now).1.onResponse r t = (false, (p.handOver q now).1) ∧
      ((p.handOver q now).1.onResponse r t).2.enlist (p.handOver q now).2 = p.transmit q now := by
  have dropped : (p.handOver q now).1.onResponse r t = (false, (p.handOver q now).1) :=
    onResponse_of_unanswered _ r t (by simpa using unanswered)
  refine ⟨dropped, ?_⟩
  rw [dropped, transmit_eq_enlist_handOver]

end ClientPeer

/-- A peer without pings that has queued one immediate request. Its service call at the instant 0
sends that request, and nothing else. If a response to the request reaches `onResponse` after the
request has gone to the transport but before the request joins the waiting list, the response is
answered `false` and the request ends up waiting open. -/
theorem response_in_the_gap_is_lost :
    let peer : ClientPeer MemoryTransport Unit :=
      ((ClientPeer.create {} { pingIntervalMs := 0 } 0).enqueue { operationCode := 7 }
        { immediate := true } none (some ())).2
    let q : Pending Unit :=
      { request := { operationCode := 7 }, parameters := { immediate := true },
        timeout := peer.settings.defaultTimeout, callback := some () }
    let due := { peer with immediate := [], nextSendAt := 0 + peer.settings.updateInterval }
    let run : Unit → Response → ClientPeer MemoryTransport Unit → ClientPeer MemoryTransport Unit × List Unit :=
      fun _ _ p => (p, [])
    let r := Response.forRequest q.request .ok
    (peer.service 0 run).1 = (due.handOver q 0).1.enlist (due.handOver q 0).2 ∧
      (due.handOver q 0).1.transport.sent = [.request q.request] ∧
      (due.handOver q 0).2.resolution = none ∧ r.requestId = q.request.requestId ∧
      ((due.handOver q 0).1.onResponse r 0).1 = false ∧
      (((due.handOver q 0).1.onResponse r 0).2.enlist (due.handOver q 0).2).waiting =
        [{ q with sentAt := some 0 }] := by
  intro peer q due run r
  have idle : due.waiting = [] := rfl
  have dropped := ClientPeer.onResponse_of_unanswered (due.handOver q 0).1 r 0 (by simp [idle])
  refine ⟨rfl, rfl, rfl, rfl, by rw [dropped], ?_⟩
  rw [dropped]
  rfl

end Switchboard.Peer
