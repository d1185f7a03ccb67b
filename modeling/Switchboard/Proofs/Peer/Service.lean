import Mathlib.Data.List.Forall2
import Switchboard.Peer.Client
/-!
# What a service call does to the requests of a client peer

Step by step, whatever the transport and the callbacks: handing on messages settles open requests by
replies with their ids (`foldl_dispatch`), dropping the settled keeps the open ones
(`waiting_dropSettled`), and a transmission appends the request marked sent (`transmit_eq`).
-/
namespace Switchboard.Peer

def Message.reply? : Message → Option Response
  | .response r => some r
  | .event _ => none
  | .request _ => none

def Response.timedOut (request : Request) : Response :=
  (Response.forRequest request .operationTimeout).withDebugMessage "operation timed out"

def Response.sendFailed (request : Request) (e : PeerError) : Response :=
  (Response.forRequest request .error).withDebugMessage e.message

namespace Pending

variable {κ : Type}

theorem markSent_of_unsent {q : Pending κ} (unsent : q.sentAt = none) (now : Nat) :
    q.markSent now = { q with sentAt := some now } := by
  simp [markSent, unsent]

theorem fail_of_unsettled {q : Pending κ} (unsettled : q.resolution = none) (rc : ReturnCode)
    (message : String) (now : Nat) :
    (q.fail rc message now).2 =
      { q with resolution := some ⟨(Response.forRequest q.request rc).withDebugMessage message, now, true⟩ } := by
  simp [fail, hasResponse, unsettled]

theorem expire_of_hasResponse {q : Pending κ} (settled : q.hasResponse = true) (now : Nat) :
    q.expire now = q := by
  simp [expire, isTimedOut, settled]

theorem expire_cases (q : Pending κ) (now : Nat) :
    q.expire now = q ∨ ∃ s, q.resolution = none ∧ q.sentAt = some s ∧ q.timeout ≤ now - s ∧
      q.expire now = { q with resolution := some ⟨Response.timedOut q.request, now, true⟩ } := by
  unfold expire
  split
  next timedOut =>
    cases sent : q.sentAt with
    | none => simp [isTimedOut, sent] at timedOut
    | some s =>
      have waited : q.hasResponse = false ∧ q.timeout ≤ now - s := by
        simpa [isTimedOut, sent] using timedOut
      have unsettled : q.resolution = none := by simpa [hasResponse] using waited.1
      refine Or.inr ⟨s, unsettled, rfl, waited.2, ?_⟩
      rw [fail_of_unsettled unsettled, sent]
      rfl
  next => exact Or.inl rfl

theorem callback_expire (q : Pending κ) (now : Nat) : (q.expire now).callback = q.callback := by
  rcases expire_cases q now with same | ⟨s, -, -, -, timedOut⟩ <;> simp [*]

/-- `q'` is `q`, or `q` was open and `q'` is it settled at `now` by a reply from `rs` that carries
its id. -/
def Replied (rs : List Response) (now : Nat) (q q' : Pending κ) : Prop :=
  q' = q ∨ q.resolution = none ∧ ∃ r ∈ rs, r.requestId = q.request.requestId ∧
    q' = { q with resolution := some ⟨r, now, false⟩ }

theorem replied_refl (rs : List Response) (now : Nat) (q : Pending κ) : Replied rs now q q :=
  Or.inl rfl

theorem forall₂_replied_refl (rs : List Response) (now : Nat) (w : List (Pending κ)) :
    List.Forall₂ (Replied rs now) w w :=
  List.forall₂_same.2 fun q _ => replied_refl rs now q

theorem Replied.mono {rs rs' : List Response} {now : Nat} {q q' : Pending κ} (sub : rs ⊆ rs')
    (h : Replied rs now q q') : Replied rs' now q q' := by
  rcases h with same | ⟨unsettled, r, mem, id, settled⟩
  · exact Or.inl same
  · exact Or.inr ⟨unsettled, r, sub mem, id, settled⟩

theorem Replied.eq_of_hasResponse {rs : List Response} {now : Nat} {q q' : Pending κ}
    (settled : q.hasResponse = true) (h : Replied rs now q q') : q' = q := by
  rcases h with same | ⟨unsettled, -⟩
  · exact same
  · simp [hasResponse, unsettled] at settled

theorem Replied.trans {rs rs' : List Response} {now : Nat} {q q₁ q₂ : Pending κ}
    (first : Replied rs now q q₁) (second : Replied rs' now q₁ q₂) : Replied (rs ++ rs') now q q₂ := by
  rcases first with rfl | ⟨unsettled, r, mem, id, rfl⟩
  · exact second.mono (List.subset_append_right rs rs')
  · -- once settled, the request keeps its reply
    rw [second.eq_of_hasResponse (by simp [hasResponse])]
    exact Or.inr ⟨unsettled, r, List.mem_append_left rs' mem, id, rfl⟩

theorem Replied.callback_eq {rs : List Response} {now : Nat} {q q' : Pending κ}
    (h : Replied rs now q q') : q'.callback = q.callback := by
  rcases h with rfl | ⟨-, -, -, -, rfl⟩ <;> rfl

/-- A request as a transmission leaves it: marked sent at `now`, and settled with an error when the
send failed with `failure`. -/
def transmitted (q : Pending κ) (now : Nat) (failure : Option PeerError) : Pending κ :=
  { q with sentAt := some now, resolution := failure.map fun e => ⟨Response.sendFailed q.request e, now, true⟩ }

@[simp] theorem callback_transmitted (q : Pending κ) (now : Nat) (failure : Option PeerError) :
    (q.transmitted now failure).callback = q.callback := rfl

end Pending

section Lists

variable {α : Type}

theorem forall₂_set {R : α → α → Prop} {l : List α} {i : Nat} (bound : i < l.length) {x : α}
    (refl : ∀ y ∈ l, R y y) (related : R l[i] x) : List.Forall₂ R l (l.set i x) := by
  induction l generalizing i with
  | nil => simp at bound
  | cons y l ih =>
    cases i with
    | zero => exact List.Forall₂.cons related (List.forall₂_same.2 fun z mem => refl z (by simp [mem]))
    | succ i =>
      exact List.Forall₂.cons (refl y (by simp))
        (ih (by simpa using bound) (fun z mem => refl z (by simp [mem])) related)

theorem forall₂_trans {R S T : α → α → Prop} (step : ∀ x y z, R x y → S y z → T x z) :
    ∀ {a b c : List α}, List.Forall₂ R a b → List.Forall₂ S b c → List.Forall₂ T a c
  | [], [], [], .nil, .nil => .nil
  | _ :: _, _ :: _, _ :: _, .cons r rs, .cons s ss => .cons (step _ _ _ r s) (forall₂_trans step rs ss)

theorem exists_of_forall₂_of_mem {R : α → α → Prop} {a b : List α} (h : List.Forall₂ R a b) {x : α}
    (mem : x ∈ a) : ∃ y ∈ b, R x y := by
  induction h with
  | nil => simp at mem
  | @cons x' y' a b related _ ih =>
    rcases List.mem_cons.1 mem with rfl | mem
    · exact ⟨y', List.mem_cons_self, related⟩
    · obtain ⟨y, mem', r⟩ := ih mem
      exact ⟨y, List.mem_cons_of_mem _ mem', r⟩

theorem exists_of_forall₂_of_mem_right {R : α → α → Prop} {a b : List α} (h : List.Forall₂ R a b)
    {y : α} (mem : y ∈ b) : ∃ x ∈ a, R x y :=
  exists_of_forall₂_of_mem (List.Forall₂.flip (R := flip R) h) mem

theorem map_fst_filter_zipIdx {l : List α} {f : α × Nat → Bool} {g : α → Bool}
    (agree : ∀ e ∈ l.zipIdx, f e = g e.1) : (l.zipIdx.filter f).map Prod.fst = l.filter g := by
  have same : l.zipIdx.filter f = l.zipIdx.filter (g ∘ Prod.fst) := List.filter_congr agree
  rw [same, ← List.filter_map, List.zipIdx_map_fst]

end Lists

theorem callbacks_of_replied {κ : Type} {rs : List Response} {now : Nat} {w w' : List (Pending κ)}
    (h : List.Forall₂ (Pending.Replied rs now) w w') :
    w'.filterMap Pending.callback = w.filterMap Pending.callback := by
  induction h with
  | nil => rfl
  | cons replied _ ih => simp [List.filterMap_cons, replied.callback_eq, ih]

theorem mem_of_replied {κ : Type} {rs : List Response} {now : Nat} {w w' : List (Pending κ)}
    (h : List.Forall₂ (Pending.Replied rs now) w w') {q : Pending κ} (mem : q ∈ w)
    (settled : q.hasResponse = true) : q ∈ w' := by
  obtain ⟨q', mem', replied⟩ := exists_of_forall₂_of_mem h mem
  rwa [replied.eq_of_hasResponse settled] at mem'

namespace ClientPeer

variable {τ κ : Type}

def queued (p : ClientPeer τ κ) : List (Pending κ) := p.immediate ++ p.delayed

def held (p : ClientPeer τ κ) : List κ := (p.queued ++ p.waiting).filterMap Pending.callback

theorem onResponse_spec (p : ClientPeer τ κ) (r : Response) (now : Nat) :
    ∃ w, (p.onResponse r now).2 = { p with waiting := w } ∧
      List.Forall₂ (Pending.Replied [r] now) p.waiting w := by
  unfold onResponse
  split
  next i found =>
    obtain ⟨bound, matched, -⟩ := List.findIdx?_eq_some_iff_getElem.1 found
    simp only [Bool.and_eq_true, beq_iff_eq, Bool.not_eq_true'] at matched
    have unsettled : p.waiting[i].resolution = none := by
      simpa [Pending.hasResponse] using matched.2
    simp only [List.getElem?_eq_getElem bound, Pending.resolve, matched.2, Bool.false_eq_true, if_false]
    refine ⟨_, rfl, forall₂_set bound (fun q _ => Pending.replied_refl _ _ q) ?_⟩
    exact Or.inr ⟨unsettled, r, List.mem_singleton_self r, matched.1.symm, rfl⟩
  next => exact ⟨p.waiting, rfl, Pending.forall₂_replied_refl _ _ _⟩

theorem dispatch_spec (now : Nat) (acc : ClientPeer τ κ × List Event) (m : Message) :
    ∃ w, (dispatch now acc m).1 = { acc.1 with waiting := w } ∧
      List.Forall₂ (Pending.Replied m.reply?.toList now) acc.1.waiting w := by
  cases m with
  | response r => simpa [dispatch, Message.reply?] using onResponse_spec acc.1 r now
  | event e => exact ⟨acc.1.waiting, rfl, Pending.forall₂_replied_refl _ _ _⟩
  | request q => exact ⟨acc.1.waiting, rfl, Pending.forall₂_replied_refl _ _ _⟩

/-- Handing on received messages settles open waiting requests by the replies among them that carry
their ids, and changes nothing else. -/
theorem foldl_dispatch (now : Nat) (ms : List Message) (acc : ClientPeer τ κ × List Event) :
    ∃ w, (ms.foldl (dispatch now) acc).1 = { acc.1 with waiting := w } ∧
      List.Forall₂ (Pending.Replied (ms.filterMap Message.reply?) now) acc.1.waiting w := by
  induction ms generalizing acc with
  | nil => exact ⟨acc.1.waiting, rfl, Pending.forall₂_replied_refl _ _ _⟩
  | cons m ms ih =>
    obtain ⟨w₁, first, related₁⟩ := dispatch_spec now acc m
    obtain ⟨w₂, rest, related₂⟩ := ih (dispatch now acc m)
    have replies : (m :: ms).filterMap Message.reply? = m.reply?.toList ++ ms.filterMap Message.reply? := by
      cases m <;> rfl
    refine ⟨w₂, by rw [List.foldl_cons, rest, first], ?_⟩
    rw [first] at related₂
    rw [replies]
    exact forall₂_trans (fun _ _ _ r s => r.trans s) related₁ related₂

@[simp] theorem waiting_expire (p : ClientPeer τ κ) (now : Nat) :
    (p.expire now).waiting = p.waiting.map (·.expire now) := rfl

@[simp] theorem waiting_recordRtt (p : ClientPeer τ κ) (q : Pending κ) :
    (p.recordRtt q).waiting = p.waiting := by
  unfold recordRtt; split <;> rfl

@[simp] theorem queued_recordRtt (p : ClientPeer τ κ) (q : Pending κ) :
    (p.recordRtt q).queued = p.queued := by
  unfold recordRtt; split <;> rfl

@[simp] theorem transport_recordRtt (p : ClientPeer τ κ) (q : Pending κ) :
    (p.recordRtt q).transport = p.transport := by
  unfold recordRtt; split <;> rfl

theorem conclude_cases {ρ : Type} (run : κ → Response → ClientPeer τ κ → ClientPeer τ κ × List ρ)
    (acc : ClientPeer τ κ × List ρ) (q : Pending κ) :
    (q.hasResponse = false ∧ conclude run acc q = acc) ∨
      (q.hasResponse = true ∧ q.callback = none ∧ (conclude run acc q).1 = acc.1.recordRtt q) ∨
      ∃ c r, q.callback = some c ∧ q.response? = some r ∧
        (conclude run acc q).1 = (run c r (acc.1.recordRtt q)).1 := by
  unfold conclude
  cases settled : q.hasResponse
  · exact Or.inl ⟨rfl, rfl⟩
  · obtain ⟨res, resolution⟩ : ∃ res, q.resolution = some res := Option.isSome_iff_exists.1 settled
    have response : q.response? = some res.response := by simp [Pending.response?, resolution]
    cases callback : q.callback with
    | none => exact Or.inr (Or.inl ⟨rfl, rfl, by simp [Pending.invoke, response, callback]⟩)
    | some c =>
      refine Or.inr (Or.inr ⟨c, res.response, rfl, response, ?_⟩)
      simp [Pending.invoke, response, callback]

/-- Running the callbacks leaves the waiting requests alone when every callback does. -/
theorem waiting_foldl_conclude {ρ : Type} {run : κ → Response → ClientPeer τ κ → ClientPeer τ κ × List ρ}
    (keeps : ∀ c r p, (run c r p).1.waiting = p.waiting) (l : List (Pending κ))
    (acc : ClientPeer τ κ × List ρ) : (l.foldl (conclude run) acc).1.waiting = acc.1.waiting := by
  induction l generalizing acc with
  | nil => rfl
  | cons q l ih =>
    rw [List.foldl_cons, ih]
    rcases conclude_cases run acc q with ⟨-, same⟩ | ⟨-, -, recorded⟩ | ⟨c, r, -, -, called⟩
    · rw [same]
    · rw [recorded, waiting_recordRtt]
    · rw [called, keeps, waiting_recordRtt]

/-- Dropping the requests settled in a snapshot of the waiting list keeps the open ones. -/
theorem waiting_dropSettled (p : ClientPeer τ κ) :
    (p.dropSettled p.waiting).waiting = p.waiting.filter fun q => !q.hasResponse := by
  unfold dropSettled
  refine map_fst_filter_zipIdx fun ⟨q, i⟩ mem => ?_
  obtain ⟨-, bound, same⟩ := List.mem_zipIdx mem
  simp only [Nat.zero_add, Nat.sub_zero] at bound same
  simp [List.getElem?_eq_getElem bound, same]

variable [Transport τ]

/-- A transmission marks the request sent, hands it to the transport and appends it to the waiting
requests, settled with an error when the send failed. -/
theorem transmit_eq (p : ClientPeer τ κ) {q : Pending κ} (unsent : q.sentAt = none)
    (unsettled : q.resolution = none) (now : Nat) :
    p.transmit q now =
      { p with transport := (Transport.send p.transport (.request q.request)).2,
               waiting := p.waiting ++ [q.transmitted now (Transport.send p.transport (.request q.request)).1] } := by
  unfold transmit
  rw [Pending.markSent_of_unsent unsent]
  dsimp only
  generalize Transport.send p.transport (.request q.request) = sent
  obtain ⟨failure, transport⟩ := sent
  cases failure with
  | none => simp [Pending.transmitted, unsettled]
  | some e => simp [Pending.transmitted, Pending.fail, Pending.hasResponse, Response.sendFailed, unsettled]

theorem transport_transmit (p : ClientPeer τ κ) (q : Pending κ) (now : Nat) :
    (p.transmit q now).transport = (Transport.send p.transport (.request q.request)).2 := by
  unfold transmit
  have request : (q.markSent now).request = q.request := by
    unfold Pending.markSent; split <;> rfl
  dsimp only
  rw [request]

/-- A due ping is a fresh request without a callback, transmitted. -/
theorem pingIfDue_cases (p : ClientPeer τ κ) (now : Nat) :
    p.pingIfDue now = p ∨ ∃ (q : Pending κ) (p₀ : ClientPeer τ κ), q.sentAt = none ∧
      q.resolution = none ∧ q.callback = none ∧ p₀.queued = p.queued ∧ p₀.waiting = p.waiting ∧
      p₀.transport = p.transport ∧
      p.pingIfDue now = p₀.transmit q now := by
  unfold pingIfDue
  split
  next _ _ interval due _ _ =>
    split
    · let ping : Pending κ :=
        { request := { operationCode := pingCode, requestId := p.nextRequestId },
          parameters := { immediate := true }, timeout := p.settings.defaultTimeout }
      let p₀ :=
        { p with nextPingAt := some (now + interval), nextRequestId := (p.nextRequestId + 1) % 65536 }
      exact Or.inr ⟨ping, p₀, rfl, rfl, rfl, rfl, rfl, rfl, rfl⟩
    · exact Or.inl rfl
  · exact Or.inl rfl

/-- A due send transmits the first queued request, an immediate one before a delayed one. -/
theorem sendIfDue_cases (p : ClientPeer τ κ) (now : Nat) :
    p.sendIfDue now = p ∨ ∃ (q : Pending κ) (p₀ : ClientPeer τ κ),
      p.queued = q :: p₀.queued ∧ p₀.waiting = p.waiting ∧
      p₀.transport = p.transport ∧ p.sendIfDue now = p₀.transmit q now := by
  unfold sendIfDue
  split
  · split
    next _ _ q rest immediate =>
      let p₀ := { p with immediate := rest, nextSendAt := now + p.settings.updateInterval }
      exact Or.inr ⟨q, p₀, by simp [queued, p₀, immediate], rfl, rfl, rfl⟩
    next _ _ q rest empty delayed =>
      let p₀ := { p with delayed := rest, nextSendAt := now + p.settings.updateInterval }
      exact Or.inr ⟨q, p₀, by simp [queued, p₀, empty, delayed], rfl, rfl, rfl⟩
    next => exact Or.inl rfl
  · exact Or.inl rfl

end ClientPeer

end Switchboard.Peer
