import Switchboard.Proofs.Peer.Bench
/-!
# Every callback of a client peer runs once, with the response that settled its request

The invariant `Sound` holds between actions on the bench: each response a callback is given is a
reply with the request's id, a timeout or a failed send (`Answered`), and the callbacks run and
those held are together the callbacks queued, so none runs twice.
-/
namespace Switchboard.Peer

/-- How the journal `J` accounts for the callback `t` running at `now` with a response: a reply
with the request's id that reached the peer after the request went out, a timeout at least
`t.timeout` after the request went out, or an error after the send failed. -/
inductive Answered (J : List Seen) (t : Ticket) (now : Nat) : Response → Prop
  | replied {s : Nat} {r : Response} (id : r.requestId = t.request.requestId)
      (order : List.Sublist [.sent s (.request t.request) none, .received (.response r), .called now t r] J) :
      Answered J t now r
  | timedOut {s : Nat} (waited : s + t.timeout ≤ now)
      (order : List.Sublist [.sent s (.request t.request) none, .called now t (.timedOut t.request)] J) :
      Answered J t now (.timedOut t.request)
  | failed {s : Nat} {e : PeerError}
      (order : List.Sublist [.sent s (.request t.request) (some e), .called now t (.sendFailed t.request e)] J) :
      Answered J t now (.sendFailed t.request e)

theorem Answered.append {J : List Seen} {t : Ticket} {now : Nat} {r : Response} (h : Answered J t now r)
    (more : List Seen) : Answered (J ++ more) t now r := by
  cases h with
  | replied id order => exact .replied id (order.trans (List.sublist_append_left J more))
  | timedOut waited order => exact .timedOut waited (order.trans (List.sublist_append_left J more))
  | failed order => exact .failed (order.trans (List.sublist_append_left J more))

/-- How the journal `J` accounts, at `clock`, for a request waiting on the peer: sent at `s` no
later than the clock and still open; or settled by a reply with its id that reached the peer after
it went out, by a timeout at least its timeout after it went out, or by the failure of its send. -/
inductive Accounted (J : List Seen) (clock : Nat) (q : Pending Ticket) : Prop
  | waits {s : Nat} (sentAt : q.sentAt = some s) (early : s ≤ clock) (unsettled : q.resolution = none)
      (sent : Seen.sent s (.request q.request) none ∈ J)
  | replied {s now : Nat} {r : Response} (settled : q.resolution = some ⟨r, now, false⟩)
      (id : r.requestId = q.request.requestId)
      (order : List.Sublist [Seen.sent s (.request q.request) none, .received (.response r)] J)
  | timedOut {s now : Nat} (settled : q.resolution = some ⟨.timedOut q.request, now, true⟩)
      (waited : s + q.timeout ≤ clock) (sent : Seen.sent s (.request q.request) none ∈ J)
  | failed {s now : Nat} {e : PeerError} (settled : q.resolution = some ⟨.sendFailed q.request e, now, true⟩)
      (sent : Seen.sent s (.request q.request) (some e) ∈ J)

namespace Accounted

variable {J : List Seen} {clock : Nat} {q : Pending Ticket}

theorem grow (h : Accounted J clock q) (more : List Seen) {clock' : Nat} (later : clock ≤ clock') :
    Accounted (J ++ more) clock' q := by
  cases h with
  | waits sentAt early unsettled sent => exact .waits sentAt (by omega) unsettled (List.mem_append_left more sent)
  | replied settled id order => exact .replied settled id (order.trans (List.sublist_append_left J more))
  | timedOut settled waited sent => exact .timedOut settled (by omega) (List.mem_append_left more sent)
  | failed settled sent => exact .failed settled (List.mem_append_left more sent)

theorem sent_of_unsettled (h : Accounted J clock q) (unsettled : q.resolution = none) :
    ∃ s, q.sentAt = some s ∧ s ≤ clock ∧ Seen.sent s (.request q.request) none ∈ J := by
  cases h with
  | waits sentAt early _ sent => exact ⟨_, sentAt, early, sent⟩
  | replied settled | timedOut settled | failed settled => simp [unsettled] at settled

theorem reply {rs : List Response} {now : Nat} {q' : Pending Ticket} (h : Accounted J clock q)
    (replied : Pending.Replied rs now q q') {more : List Seen}
    (received : ∀ r ∈ rs, Seen.received (.response r) ∈ more) : Accounted (J ++ more) clock q' := by
  rcases replied with rfl | ⟨unsettled, r, mem, id, rfl⟩
  · exact h.grow more (Nat.le_refl clock)
  · obtain ⟨s, -, -, sent⟩ := h.sent_of_unsettled unsettled
    exact .replied rfl id ((List.singleton_sublist.2 sent).append (List.singleton_sublist.2 (received r mem)))

theorem expire {now : Nat} (h : Accounted J now q) : Accounted J now (q.expire now) := by
  rcases Pending.expire_cases q now with same | ⟨s, unsettled, sentAt, waited, expired⟩
  · rw [same]
    exact h
  · obtain ⟨s', sentAt', early, sent⟩ := h.sent_of_unsettled unsettled
    -- the send the journal shows is the one whose time the request keeps
    obtain rfl : s = s' := Option.some.inj (sentAt.symm.trans sentAt')
    rw [expired]
    exact .timedOut rfl (show s + q.timeout ≤ now by omega) sent

theorem answered {now : Nat} {r : Response} (h : Accounted J now q) (response : q.response? = some r)
    (more : List Seen) : Answered (J ++ Seen.called now q.ticket r :: more) q.ticket now r := by
  have call : [Seen.called now q.ticket r].Sublist (Seen.called now q.ticket r :: more) :=
    List.singleton_sublist.2 List.mem_cons_self
  cases h with
  | waits _ _ unsettled => simp [Pending.response?, unsettled] at response
  | replied settled id order =>
    obtain rfl : _ = r := by simpa [Pending.response?, settled] using response
    exact .replied id (order.append call)
  | timedOut settled waited sent =>
    obtain rfl : _ = r := by simpa [Pending.response?, settled] using response
    exact .timedOut waited ((List.singleton_sublist.2 sent).append call)
  | failed settled sent =>
    obtain rfl : _ = r := by simpa [Pending.response?, settled] using response
    exact .failed ((List.singleton_sublist.2 sent).append call)

end Accounted

/-- What holds of a peer on the bench between actions. -/
structure Sound (p : ClientPeer Recorder Ticket) : Prop where
  /-- Queued requests are fresh. -/
  fresh : ∀ q ∈ p.queued, q.Fresh
  /-- The journal accounts for every waiting request. -/
  accounted : ∀ q ∈ p.waiting, Accounted p.transport.journal p.transport.clock q
  /-- A waiting request's callback, if it has one, is its own ticket. -/
  ticketed : ∀ q ∈ p.waiting, ∀ t ∈ q.callback, t = q.ticket
  /-- Every callback that ran is answered. -/
  answered : ∀ now t r, Seen.called now t r ∈ p.transport.journal → Answered p.transport.journal t now r
  /-- The callbacks that ran and those the peer still holds are the callbacks queued. -/
  balanced : (Seen.calls p.transport.journal ++ p.held).Perm (Seen.registrations p.transport.journal)

theorem sound_onBench (settings : ClientSettings) : Sound (ClientPeer.onBench settings) where
  fresh := by simp [ClientPeer.onBench, ClientPeer.create, ClientPeer.queued]
  accounted := by simp [ClientPeer.onBench, ClientPeer.create]
  ticketed := by simp [ClientPeer.onBench, ClientPeer.create]
  answered := by simp [ClientPeer.onBench, ClientPeer.create]
  balanced := by simp [ClientPeer.onBench, ClientPeer.create, ClientPeer.held, ClientPeer.queued]

theorem answered_append {J more : List Seen} (answered : ∀ now t r, Seen.called now t r ∈ J → Answered J t now r)
    (quiet : Seen.calls more = []) : ∀ now t r, Seen.called now t r ∈ J ++ more → Answered (J ++ more) t now r := by
  intro now t r mem
  rcases List.mem_append.1 mem with old | new
  · exact (answered now t r old).append more
  · simpa [quiet] using Seen.mem_calls new

theorem answered_call {J more : List Seen} {now : Nat} {t : Ticket} {r : Response}
    (answered : ∀ now t r, Seen.called now t r ∈ J → Answered J t now r)
    (call : Answered (J ++ Seen.called now t r :: more) t now r) (quiet : Seen.calls more = []) :
    ∀ n t' r', Seen.called n t' r' ∈ J ++ Seen.called now t r :: more →
      Answered (J ++ Seen.called now t r :: more) t' n r' := by
  intro n t' r' mem
  rcases List.mem_append.1 mem with old | new
  · exact (answered n t' r' old).append _
  · rcases List.mem_cons.1 new with same | later
    · obtain ⟨rfl, rfl, rfl⟩ : n = now ∧ t' = t ∧ r' = r := by simpa using same
      exact call
    · simpa [quiet] using Seen.mem_calls later

theorem Sound.replied {p p' : ClientPeer Recorder Ticket} (sound : Sound p) {rs : List Response} {now : Nat}
    (queued : p'.queued = p.queued) (waiting : List.Forall₂ (Pending.Replied rs now) p.waiting p'.waiting)
    {more : List Seen} (journal : p'.transport.journal = p.transport.journal ++ more)
    (received : ∀ r ∈ rs, Seen.received (.response r) ∈ more) (noCalls : Seen.calls more = [])
    (noRegistrations : Seen.registrations more = []) (later : p.transport.clock ≤ p'.transport.clock) :
    Sound p' where
  fresh q mem := sound.fresh q (queued ▸ mem)
  accounted q' mem := by
    obtain ⟨q, mem, replied⟩ := exists_of_forall₂_of_mem_right waiting mem
    rw [journal]
    simpa using ((sound.accounted q mem).reply replied received).grow [] later
  ticketed q' mem := by
    obtain ⟨q, mem, replied⟩ := exists_of_forall₂_of_mem_right waiting mem
    rw [replied.callback_eq, replied.ticket_eq]
    exact sound.ticketed q mem
  answered := journal ▸ answered_append sound.answered noCalls
  balanced := by
    have held : p'.held = p.held := by
      simp [ClientPeer.held, queued, callbacks_of_replied waiting]
    rw [journal, held]
    simpa [noCalls, noRegistrations] using sound.balanced

theorem Sound.frame {p p' : ClientPeer Recorder Ticket} (sound : Sound p) (queued : p'.queued = p.queued)
    (waiting : p'.waiting = p.waiting) {more : List Seen} (journal : p'.transport.journal = p.transport.journal ++ more)
    (noCalls : Seen.calls more = []) (noRegistrations : Seen.registrations more = [])
    (later : p.transport.clock ≤ p'.transport.clock) : Sound p' := by
  have same : List.Forall₂ (Pending.Replied [] 0) p.waiting p'.waiting :=
    waiting ▸ Pending.forall₂_replied_refl [] 0 p.waiting
  exact sound.replied queued same journal (by simp) noCalls noRegistrations later

theorem Sound.submit {p : ClientPeer Recorder Ticket} (sound : Sound p) (s : Submission) :
    Sound (p.submit s) := by
  rcases ClientPeer.submit_cases p s with same | ⟨q, fresh, waiting, queued, transport⟩
  · rw [same]
    exact sound
  · have journal : (p.submit s).transport.journal = p.transport.journal ++ [.registered q.ticket] := by
      rw [transport]
      rfl
    have held : (p.submit s).held.Perm (p.held ++ [q.ticket]) := by
      have moved := (queued.append_right p.waiting).filterMap Pending.callback
      rw [ClientPeer.held, waiting]
      refine moved.trans (List.perm_iff_count.2 fun t => ?_)
      simp [ClientPeer.held, fresh.ticketed, List.count_append, List.count_cons]
    refine ⟨?_, ?_, ?_, ?_, ?_⟩
    · intro q' mem
      rcases List.mem_append.1 (queued.subset mem) with old | new
      · exact sound.fresh q' old
      · obtain rfl : q' = q := List.mem_singleton.1 new
        exact fresh
    · intro q' mem
      rw [journal, transport]
      exact (sound.accounted q' (waiting ▸ mem)).grow _ (Nat.le_refl _)
    · intro q' mem
      exact sound.ticketed q' (waiting ▸ mem)
    · rw [journal]
      exact answered_append sound.answered (by simp [Seen.call?])
    · rw [journal]
      refine (List.perm_iff_count.2 fun t => ?_)
      have before := List.perm_iff_count.1 sound.balanced t
      have after := List.perm_iff_count.1 held t
      simp [List.count_append, Seen.call?, Seen.registration?] at before after ⊢
      omega

theorem Sound.respond {p : ClientPeer Recorder Ticket} (sound : Sound p) (r : Response) (now : Nat) :
    Sound ((p.note (.received (.response r))).onResponse r now).2 := by
  obtain ⟨w, eq, waiting⟩ := ClientPeer.onResponse_spec (p.note (.received (.response r))) r now
  rw [eq]
  exact sound.replied rfl waiting rfl (by simp) (by simp [Seen.call?]) (by simp [Seen.registration?])
    (Nat.le_refl _)

theorem Sound.dispatch {p : ClientPeer Recorder Ticket} (sound : Sound p) (now : Nat) :
    Sound ((Transport.drain p.transport).1.foldl (ClientPeer.dispatch now)
      ({ p with transport := (Transport.drain p.transport).2 }, [])).1 := by
  obtain ⟨w, eq, waiting⟩ := ClientPeer.foldl_dispatch now (Transport.drain p.transport).1
    ({ p with transport := (Transport.drain p.transport).2 }, [])
  rw [eq]
  refine sound.replied rfl waiting rfl ?_ (by simp) (by simp) (Nat.le_refl _)
  intro r mem
  obtain ⟨m, arrived, reply⟩ := List.mem_filterMap.1 mem
  cases m with
  | response r' =>
    obtain rfl : r' = r := by simpa [Message.reply?] using reply
    exact List.mem_map_of_mem arrived
  | event e => simp [Message.reply?] at reply
  | request q => simp [Message.reply?] at reply

theorem Sound.expire {p : ClientPeer Recorder Ticket} (sound : Sound p) {now : Nat}
    (clock : p.transport.clock = now) : Sound (p.expire now) where
  fresh := sound.fresh
  accounted q' mem := by
    obtain ⟨q, kept, rfl⟩ := List.mem_map.1 mem
    show Accounted p.transport.journal p.transport.clock (q.expire now)
    rw [clock]
    exact (clock ▸ sound.accounted q kept).expire
  ticketed q' mem := by
    obtain ⟨q, kept, rfl⟩ := List.mem_map.1 mem
    rw [Pending.callback_expire, Pending.ticket_expire]
    exact sound.ticketed q kept
  answered := sound.answered
  balanced := by
    have held : (p.expire now).held = p.held := by
      simp [ClientPeer.held, List.filterMap_map, Pending.callback_expire]
      rfl
    rw [held]
    exact sound.balanced

/-- Partway through the callbacks of a service call at `now`, over a snapshot `done ++ rest` of the
waiting requests taken when the journal was `J`: the waiting requests are still the snapshot; the
callbacks of the settled requests in `done` have run with their responses since `J`; and the peer
still holds the callbacks of `rest` and of the open requests in `done`. -/
structure Midway (now : Nat) (J : List Seen) (done rest : List (Pending Ticket))
    (p : ClientPeer Recorder Ticket) : Prop where
  waiting : p.waiting = done ++ rest
  clock : p.transport.clock = now
  fresh : ∀ q ∈ p.queued, q.Fresh
  accounted : ∀ q ∈ p.waiting, Accounted p.transport.journal now q
  ticketed : ∀ q ∈ p.waiting, ∀ t ∈ q.callback, t = q.ticket
  answered : ∀ n t r, Seen.called n t r ∈ p.transport.journal → Answered p.transport.journal t n r
  balanced : (Seen.calls p.transport.journal ++ (p.queued.filterMap Pending.callback ++
    (done.filter (fun q => !q.hasResponse) ++ rest).filterMap Pending.callback)).Perm
      (Seen.registrations p.transport.journal)
  called : ∃ more, p.transport.journal = J ++ more ∧
    ∀ q ∈ done, ∀ t ∈ q.callback, ∀ r ∈ q.response?, Seen.called now t r ∈ more

theorem Sound.midway {p : ClientPeer Recorder Ticket} (sound : Sound p) {now : Nat}
    (clock : p.transport.clock = now) : Midway now p.transport.journal [] p.waiting p where
  waiting := rfl
  clock := clock
  fresh := sound.fresh
  accounted := clock ▸ sound.accounted
  ticketed := sound.ticketed
  answered := sound.answered
  balanced := by simpa [ClientPeer.held] using sound.balanced
  called := ⟨[], by simp, by simp⟩

namespace Midway

variable {now : Nat} {J : List Seen} {done rest : List (Pending Ticket)} {q : Pending Ticket}
  {p : ClientPeer Recorder Ticket}

theorem congr (h : Midway now J done rest p) {p' : ClientPeer Recorder Ticket} (queued : p'.queued = p.queued)
    (waiting : p'.waiting = p.waiting) (transport : p'.transport = p.transport) : Midway now J done rest p' := by
  obtain ⟨h₁, h₂, h₃, h₄, h₅, h₆, h₇, h₈⟩ := h
  exact ⟨waiting ▸ h₁, transport ▸ h₂, queued ▸ h₃, waiting ▸ transport ▸ h₄, waiting ▸ h₅,
    transport ▸ h₆, queued ▸ transport ▸ h₇, transport ▸ h₈⟩

theorem pass (h : Midway now J done (q :: rest) p)
    (held : ((done ++ [q]).filter (fun q => !q.hasResponse) ++ rest).filterMap Pending.callback =
      (done.filter (fun q => !q.hasResponse) ++ q :: rest).filterMap Pending.callback)
    (silent : ∀ t ∈ q.callback, ∀ r ∈ q.response?, False) : Midway now J (done ++ [q]) rest p where
  waiting := by rw [h.waiting]; simp
  clock := h.clock
  fresh := h.fresh
  accounted := h.accounted
  ticketed := h.ticketed
  answered := h.answered
  balanced := held ▸ h.balanced
  called := by
    obtain ⟨more, journal, called⟩ := h.called
    refine ⟨more, journal, fun q' mem t ht r hr => ?_⟩
    rcases List.mem_append.1 mem with old | new
    · exact called q' old t ht r hr
    · obtain rfl : q' = q := List.mem_singleton.1 new
      exact (silent t ht r hr).elim

theorem call (script : Ticket → Response → List Submission) (h : Midway now J done (q :: rest) p)
    {t : Ticket} {r : Response} (callback : q.callback = some t) (response : q.response? = some r) :
    Midway now J (done ++ [q]) rest (ClientPeer.answer script t r p).1 := by
  obtain ⟨qs, fresh, waiting, queued, transport⟩ := ClientPeer.answer_spec script t r p
  have mem : q ∈ p.waiting := by rw [h.waiting]; simp
  obtain rfl : t = q.ticket := h.ticketed q mem t callback
  have settled : q.hasResponse = true := by
    simpa [Pending.hasResponse, Pending.response?] using congrArg Option.isSome response
  have journal : (ClientPeer.answer script q.ticket r p).1.transport.journal =
      p.transport.journal ++ Seen.called now q.ticket r :: qs.map fun q => .registered q.ticket := by
    rw [transport, h.clock]
  refine ⟨?_, ?_, ?_, ?_, ?_, ?_, ?_, ?_⟩
  · rw [waiting, h.waiting]
    simp
  · rw [transport]
    exact h.clock
  · intro q' mem'
    rcases List.mem_append.1 (queued.subset mem') with old | new
    · exact h.fresh q' old
    · exact fresh q' new
  · intro q' mem'
    rw [waiting] at mem'
    rw [journal]
    exact (h.accounted q' mem').grow _ (Nat.le_refl now)
  · rw [waiting]
    exact h.ticketed
  · rw [journal]
    exact answered_call h.answered ((h.accounted q mem).answered response _) (by simp)
  · rw [journal]
    refine List.perm_iff_count.2 fun a => ?_
    have before := List.perm_iff_count.1 h.balanced a
    have requeued := List.perm_iff_count.1 (queued.filterMap Pending.callback) a
    have tickets : qs.filterMap Pending.callback = qs.map Pending.ticket := by
      rw [List.filterMap_eq_map_iff_forall_eq_some]
      exact fun q' mem' => (fresh q' mem').ticketed
    simp [List.count_append, List.count_cons, List.filter_append, settled, callback, tickets,
      Seen.call?, Seen.registration?] at before requeued ⊢
    omega
  · obtain ⟨more, journal₀, called⟩ := h.called
    refine ⟨more ++ Seen.called now q.ticket r :: qs.map fun q => .registered q.ticket, ?_, ?_⟩
    · rw [journal, journal₀, List.append_assoc]
    · intro q' mem' t' ht r' hr
      rcases List.mem_append.1 mem' with old | new
      · exact List.mem_append_left _ (called q' old t' ht r' hr)
      · obtain rfl : q = q' := (List.mem_singleton.1 new).symm
        obtain rfl : t' = q.ticket := by simpa [callback] using ht.symm
        obtain rfl : r' = r := by simpa [response] using hr.symm
        simp

theorem conclude (script : Ticket → Response → List Submission) {acc : ClientPeer Recorder Ticket × List Unit}
    (h : Midway now J done (q :: rest) acc.1) :
    Midway now J (done ++ [q]) rest (ClientPeer.conclude (ClientPeer.answer script) acc q).1 := by
  rcases ClientPeer.conclude_cases (ClientPeer.answer script) acc q with
    ⟨unsettled, same⟩ | ⟨settled, none, recorded⟩ | ⟨t, r, callback, response, called⟩
  · rw [same]
    have response : q.response? = none := by
      simpa [Pending.hasResponse, Pending.response?] using unsettled
    exact h.pass (by simp [List.filter_append, unsettled]) (by simp [response])
  · rw [recorded]
    refine (h.pass ?_ (by simp [none])).congr (by simp) (by simp) (by simp)
    simp [List.filter_append, settled, none]
  · rw [called]
    exact (h.congr (by simp) (by simp) (by simp)).call script callback response

theorem foldl (script : Ticket → Response → List Submission) :
    ∀ {done rest : List (Pending Ticket)} (acc : ClientPeer Recorder Ticket × List Unit),
      Midway now J done rest acc.1 →
        Midway now J (done ++ rest) [] (rest.foldl (ClientPeer.conclude (ClientPeer.answer script)) acc).1
  | done, [], acc, h => by simpa using h
  | done, q :: rest, acc, h => by
    simpa using foldl script _ (h.conclude script)

theorem dropSettled (h : Midway now J done [] p) : Sound (p.dropSettled p.waiting) where
  fresh := h.fresh
  accounted q mem := by
    rw [ClientPeer.waiting_dropSettled] at mem
    exact h.clock ▸ h.accounted q (List.mem_of_mem_filter mem)
  ticketed q mem := by
    rw [ClientPeer.waiting_dropSettled] at mem
    exact h.ticketed q (List.mem_of_mem_filter mem)
  answered := h.answered
  balanced := by
    have held : (p.dropSettled p.waiting).held =
        p.queued.filterMap Pending.callback ++ (done.filter fun q => !q.hasResponse).filterMap Pending.callback := by
      rw [ClientPeer.held, ClientPeer.waiting_dropSettled, h.waiting, List.append_nil, List.filterMap_append]
      rfl
    have transport : (p.dropSettled p.waiting).transport = p.transport := rfl
    rw [held, transport]
    simpa using h.balanced

end Midway

theorem Sound.transmit {p p₀ : ClientPeer Recorder Ticket} {q : Pending Ticket} (sound : Sound p)
    (unsent : q.sentAt = none) (unsettled : q.resolution = none) (ticketed : ∀ t ∈ q.callback, t = q.ticket)
    (queued : ∀ q' ∈ p₀.queued, q' ∈ p.queued) (waiting : p₀.waiting = p.waiting)
    (transport : p₀.transport = p.transport) (held : (p₀.held ++ q.callback.toList).Perm p.held) {now : Nat}
    (clock : p.transport.clock = now) : Sound (p₀.transmit q now) := by
  rw [ClientPeer.transmit_eq p₀ unsent unsettled now, transport, Recorder.send_eq, clock]
  -- the request goes out, or fails when the transport is broken
  have sent : Accounted (p.transport.journal ++ [.sent now (.request q.request) p.transport.failure]) now
      (q.transmitted now p.transport.failure) := by
    unfold Pending.transmitted
    cases p.transport.failure with
    | none => exact .waits rfl (Nat.le_refl now) rfl (by simp)
    | some e => exact .failed rfl (show Seen.sent now (.request q.request) (some e) ∈ _ by simp)
  refine ⟨fun q' mem => sound.fresh q' (queued q' mem), ?_, ?_, ?_, ?_⟩
  · intro q' mem
    rw [Recorder.journal_note, Recorder.clock_note, clock]
    rcases List.mem_append.1 mem with old | new
    · exact (clock ▸ sound.accounted q' (waiting ▸ old)).grow _ (Nat.le_refl now)
    · obtain rfl := List.mem_singleton.1 new
      exact sent
  · intro q' mem
    rcases List.mem_append.1 mem with old | new
    · exact sound.ticketed q' (waiting ▸ old)
    · obtain rfl := List.mem_singleton.1 new
      exact ticketed
  · rw [Recorder.journal_note]
    exact answered_append sound.answered (by simp [Seen.call?])
  · rw [Recorder.journal_note]
    have moved : ((p₀.queued ++ (p₀.waiting ++ [q.transmitted now p.transport.failure])).filterMap
        Pending.callback).Perm p.held := by
      refine (List.Perm.of_eq ?_).trans held
      cases callback : q.callback <;> simp [ClientPeer.held, callback]
    simpa [ClientPeer.held, ClientPeer.queued, Seen.call?, Seen.registration?] using
      (moved.append_left _).trans sound.balanced

theorem Sound.pingIfDue {p : ClientPeer Recorder Ticket} (sound : Sound p) {now : Nat}
    (clock : p.transport.clock = now) : Sound (p.pingIfDue now) := by
  rcases ClientPeer.pingIfDue_cases p now with
    same | ⟨q, p₀, unsent, unsettled, none, queued, waiting, transport, eq⟩
  · rw [same]
    exact sound
  · rw [eq]
    refine sound.transmit unsent unsettled (by simp [none]) (by simp [queued]) waiting transport ?_ clock
    simp [ClientPeer.held, none, queued, waiting]

theorem Sound.sendIfDue {p : ClientPeer Recorder Ticket} (sound : Sound p) {now : Nat}
    (clock : p.transport.clock = now) : Sound (p.sendIfDue now) := by
  rcases ClientPeer.sendIfDue_cases p now with same | ⟨q, p₀, queued, waiting, transport, eq⟩
  · rw [same]
    exact sound
  · have fresh : q.Fresh := sound.fresh q (by simp [queued])
    rw [eq]
    refine sound.transmit fresh.unsent fresh.unsettled (by simp [fresh.ticketed])
      (fun q' mem => by simp [queued, mem]) waiting transport ?_ clock
    simpa [ClientPeer.held, queued, waiting, fresh.ticketed] using
      List.perm_append_singleton q.ticket ((p₀.queued ++ p.waiting).filterMap Pending.callback)

theorem transport_pingIfDue {κ : Type} (p : ClientPeer Recorder κ) (now : Nat) :
    (p.pingIfDue now).transport.clock = p.transport.clock ∧
      ∃ more, (p.pingIfDue now).transport.journal = p.transport.journal ++ more := by
  rcases ClientPeer.pingIfDue_cases p now with same | ⟨q, p₀, -, -, -, -, -, transport, eq⟩
  · exact ⟨by rw [same], [], by rw [same, List.append_nil]⟩
  · rw [eq, ClientPeer.transport_transmit_recorder, transport]
    exact ⟨rfl, _, rfl⟩

theorem transport_sendIfDue {κ : Type} (p : ClientPeer Recorder κ) (now : Nat) :
    (p.sendIfDue now).transport.clock = p.transport.clock ∧
      ∃ more, (p.sendIfDue now).transport.journal = p.transport.journal ++ more := by
  rcases ClientPeer.sendIfDue_cases p now with same | ⟨q, p₀, -, -, transport, eq⟩
  · exact ⟨by rw [same], [], by rw [same, List.append_nil]⟩
  · rw [eq, ClientPeer.transport_transmit_recorder, transport]
    exact ⟨rfl, _, rfl⟩

theorem Sound.flush {p : ClientPeer Recorder Ticket} (sound : Sound p) {now : Nat}
    (clock : p.transport.clock = now) :
    Sound (if !p.connected then p else (p.pingIfDue now).sendIfDue now) ∧
      ∃ more, (if !p.connected then p else (p.pingIfDue now).sendIfDue now).transport.journal =
        p.transport.journal ++ more := by
  split
  · exact ⟨sound, [], (List.append_nil _).symm⟩
  · obtain ⟨clock₁, extra₁, pinged⟩ := transport_pingIfDue p now
    obtain ⟨-, extra₂, sent⟩ := transport_sendIfDue (p.pingIfDue now) now
    refine ⟨(sound.pingIfDue clock).sendIfDue (clock₁.trans clock), extra₁ ++ extra₂, ?_⟩
    rw [sent, pinged, List.append_assoc]

theorem Sound.service {p : ClientPeer Recorder Ticket} (sound : Sound p)
    (script : Ticket → Response → List Submission) (wait : Nat) :
    Sound ((Action.service wait).perform script p) ∧
      ∀ q ∈ p.waiting, q.hasResponse = true → ∃ more,
        ((Action.service wait).perform script p).transport.journal = p.transport.journal ++ more ∧
          ∀ t ∈ q.callback, ∀ r ∈ q.response?, Seen.called (p.transport.clock + wait) t r ∈ more := by
  set now := p.transport.clock + wait
  set p₁ : ClientPeer Recorder Ticket := { p with transport := { p.transport with clock := now } }
  have sound₁ : Sound p₁ := sound.frame rfl rfl (List.append_nil _).symm rfl rfl (Nat.le_add_right _ _)
  obtain ⟨w, received, replied⟩ := ClientPeer.foldl_dispatch now (Transport.drain p₁.transport).1
    ({ p₁ with transport := (Transport.drain p₁.transport).2 }, [])
  set p₂ := ((Transport.drain p₁.transport).1.foldl (ClientPeer.dispatch now)
    ({ p₁ with transport := (Transport.drain p₁.transport).2 }, [])).1
  have sound₂ : Sound p₂ := sound₁.dispatch now
  have clock₂ : p₂.transport.clock = now := by rw [received]; rfl
  set p₃ := p₂.expire now
  have midway := Midway.foldl script (p₃, []) ((sound₂.expire clock₂).midway clock₂)
  set p₄ := (p₃.waiting.foldl (ClientPeer.conclude (ClientPeer.answer script)) (p₃, [])).1
  have keeps : p₄.waiting = p₃.waiting := by simpa only [List.nil_append, List.append_nil] using midway.waiting
  set p₅ := p₄.dropSettled p₃.waiting
  have sound₅ : Sound p₅ := by
    show Sound (p₄.dropSettled p₃.waiting)
    rw [← keeps]
    exact midway.dropSettled
  have eq : (Action.service wait).perform script p =
      if !p₅.connected then p₅ else (p₅.pingIfDue now).sendIfDue now := by
    show (if !p₅.connected then (p₅, _, _) else ((p₅.pingIfDue now).sendIfDue now, _, _)).1 = _
    split <;> rfl
  obtain ⟨sound₆, extra, journal⟩ := sound₅.flush midway.clock
  rw [eq]
  refine ⟨sound₆, fun q mem settled => ?_⟩
  -- a settled request is in the snapshot as it was
  have mem₃ : q ∈ p₃.waiting := by
    rw [ClientPeer.waiting_expire]
    refine List.mem_map.2 ⟨q, ?_, Pending.expire_of_hasResponse settled now⟩
    rw [received]
    exact mem_of_replied replied mem settled
  obtain ⟨more, journal₄, called⟩ := midway.called
  have journal₂ : p₂.transport.journal = p.transport.journal ++ p.transport.incoming.map Seen.received := by
    rw [received]
    rfl
  refine ⟨p.transport.incoming.map Seen.received ++ more ++ extra, ?_, ?_⟩
  · rw [journal]
    show p₄.transport.journal ++ extra = _
    rw [journal₄]
    show p₂.transport.journal ++ more ++ extra = _
    rw [journal₂, List.append_assoc, List.append_assoc, List.append_assoc]
  · intro t ht r hr
    exact List.mem_append_left _ (List.mem_append_right _ (called q (List.mem_append_right [] mem₃) t ht r hr))

theorem Sound.perform {p : ClientPeer Recorder Ticket} (sound : Sound p)
    (script : Ticket → Response → List Submission) (a : Action) : Sound (a.perform script p) := by
  cases a with
  | send s => exact sound.submit s
  | respond r now => exact sound.respond r now
  | arrive m | failSends broken | disconnect =>
    -- only the transport's flags and inbox change
    exact sound.frame rfl rfl (List.append_nil _).symm rfl rfl (Nat.le_refl _)
  | service wait => exact (sound.service script wait).1

theorem Sound.run {p : ClientPeer Recorder Ticket} (sound : Sound p)
    (script : Ticket → Response → List Submission) (actions : List Action) :
    Sound (Action.run script actions p) := by
  induction actions generalizing p with
  | nil => exact sound
  | cons a actions ih => exact ih (sound.perform script a)

theorem calls_perform (script : Ticket → Response → List Submission) (p : ClientPeer Recorder Ticket)
    (a : Action) (notService : ∀ wait, a ≠ .service wait) :
    Seen.calls (a.perform script p).transport.journal = Seen.calls p.transport.journal := by
  cases a with
  | send s =>
    rcases ClientPeer.submit_cases p s with same | ⟨q, -, -, -, transport⟩
    · exact congrArg (fun p => Seen.calls p.transport.journal) same
    · show Seen.calls (p.submit s).transport.journal = _
      rw [transport]
      simp [Seen.call?]
  | respond r now =>
    obtain ⟨w, eq, -⟩ := ClientPeer.onResponse_spec (p.note (.received (.response r))) r now
    show Seen.calls ((p.note _).onResponse r now).2.transport.journal = _
    rw [eq]
    simp [ClientPeer.note, Seen.call?]
  | arrive m | failSends broken | disconnect => rfl
  | service wait => exact absurd rfl (notService wait)

theorem Sound.settled_kept {p : ClientPeer Recorder Ticket} (sound : Sound p)
    (script : Ticket → Response → List Submission) (a : Action) {q : Pending Ticket} (mem : q ∈ p.waiting)
    (settled : q.hasResponse = true) :
    q ∈ (a.perform script p).waiting ∨
      ∃ more, (a.perform script p).transport.journal = p.transport.journal ++ more ∧
        ∀ t ∈ q.callback, ∀ r ∈ q.response?, ∃ now, Seen.called now t r ∈ more := by
  cases a with
  | send s =>
    left
    rcases ClientPeer.submit_cases p s with same | ⟨-, -, waiting, -⟩
    · show q ∈ (p.submit s).waiting
      rw [same]
      exact mem
    · exact waiting ▸ mem
  | respond r now =>
    left
    obtain ⟨w, eq, replied⟩ := ClientPeer.onResponse_spec (p.note (.received (.response r))) r now
    show q ∈ ((p.note _).onResponse r now).2.waiting
    rw [eq]
    exact mem_of_replied replied mem settled
  | arrive m | failSends broken | disconnect => exact Or.inl mem
  | service wait =>
    obtain ⟨more, journal, called⟩ := (sound.service script wait).2 q mem settled
    exact Or.inr ⟨more, journal, fun t ht r hr => ⟨_, called t ht r hr⟩⟩

/-- On the bench, whatever the settings, the callbacks' script and the actions: the callbacks that
have run and those the peer still holds are the callbacks queued, so none has run twice; each ran
with a response the journal accounts for; callbacks run only inside service calls; and a settled
request keeps its settlement until its callback runs with it. -/
theorem callbacks_run_once_with_their_answer (settings : ClientSettings)
    (script : Ticket → Response → List Submission) (actions : List Action) :
    let p := Action.run script actions (ClientPeer.onBench settings)
    (Seen.calls p.transport.journal ++ p.held).Perm (Seen.registrations p.transport.journal) ∧
      (∀ now t r, Seen.called now t r ∈ p.transport.journal → Answered p.transport.journal t now r) ∧
      ∀ a : Action,
        ((∀ wait, a ≠ .service wait) →
          Seen.calls (a.perform script p).transport.journal = Seen.calls p.transport.journal) ∧
        ∀ q ∈ p.waiting, q.hasResponse = true →
          q ∈ (a.perform script p).waiting ∨
            ∃ more, (a.perform script p).transport.journal = p.transport.journal ++ more ∧
              ∀ t ∈ q.callback, ∀ r ∈ q.response?, ∃ now, Seen.called now t r ∈ more := by
  intro p
  have sound : Sound p := (sound_onBench settings).run script actions
  exact ⟨sound.balanced, sound.answered,
    fun a => ⟨calls_perform script p a, fun q mem settled => sound.settled_kept script a mem settled⟩⟩

end Switchboard.Peer
