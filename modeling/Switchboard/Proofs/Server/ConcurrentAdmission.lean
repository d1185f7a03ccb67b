import Mathlib
import Switchboard.Server.Admission
/-!
# Admission under concurrent calls

A call through the gates is a sequence of atomic steps, and a release two, interleaved in any
order. The invariant `Traffic.Counted` says each count is exactly the places held in it, so no
interleaving admits more than a limit allows (`admission_counts_exactly_and_never_overadmits`).
-/
namespace Switchboard.Server

open Admission

def Admission.tallyPending (a : Admission) (i : Nat) : Nat := ((a.tallies[i]?).map (·.pending)).getD 0

namespace Admission

@[simp] theorem Tally.pending_tick (t : Tally) (now window limit : Nat) :
    (Tally.tick t now window limit).2.pending = t.pending := by
  unfold Tally.tick
  split <;> rfl

@[simp] theorem pending_modifyTally (a : Admission) (i : Nat) (f : Tally → Tally) :
    (a.modifyTally i f).pending = a.pending := rfl

@[simp] theorem limits_modifyTally (a : Admission) (i : Nat) (f : Tally → Tally) :
    (a.modifyTally i f).limits = a.limits := rfl

@[simp] theorem sessions_modifyTally (a : Admission) (i : Nat) (f : Tally → Tally) :
    (a.modifyTally i f).sessions = a.sessions := rfl

@[simp] theorem length_modifyTally (a : Admission) (i : Nat) (f : Tally → Tally) :
    (a.modifyTally i f).tallies.length = a.tallies.length := by
  simp [modifyTally]

@[simp] theorem tallyPending_setPending (a : Admission) (n j : Nat) :
    ({ a with pending := n } : Admission).tallyPending j = a.tallyPending j := rfl

theorem pending_getD (a : Admission) (i x : Nat) :
    (a.tallies.getD i { windowStart := x }).pending = a.tallyPending i := by
  simp only [tallyPending, List.getD_eq_getElem?_getD]
  cases a.tallies[i]? <;> rfl

theorem lt_length_of_tallyPending_pos {a : Admission} {i : Nat} (h : 0 < a.tallyPending i) :
    i < a.tallies.length := by
  by_contra past
  simp [tallyPending, List.getElem?_eq_none (Nat.le_of_not_lt past)] at h

theorem tallyPending_modifyTally (a : Admission) (i : Nat) (f : Tally → Tally) (j : Nat) :
    (a.modifyTally i f).tallyPending j =
      if i = j then ((a.tallies[j]?).map fun t => (f t).pending).getD 0 else a.tallyPending j := by
  by_cases same : i = j
  · subst same
    simp [tallyPending, modifyTally, Function.comp_def]
  · simp [tallyPending, modifyTally, same]

theorem tallyPending_modifyTally_pending (a : Admission) {i : Nat} (known : i < a.tallies.length)
    (g : Nat → Nat) (j : Nat) :
    (a.modifyTally i fun t => { t with pending := g t.pending }).tallyPending j =
      if i = j then g (a.tallyPending i) else a.tallyPending j := by
  rw [tallyPending_modifyTally]
  by_cases same : i = j
  · subst same
    simp [tallyPending, List.getElem?_eq_getElem known]
  · simp [same]

theorem tallyPending_modifyTally_of_keeps (a : Admission) (i : Nat) (f : Tally → Tally)
    (keeps : ∀ t, a.tallies[i]? = some t → (f t).pending = t.pending) (j : Nat) :
    (a.modifyTally i f).tallyPending j = a.tallyPending j := by
  rw [tallyPending_modifyTally]
  by_cases same : i = j
  · subst same
    cases found : a.tallies[i]? with
    | none => simp [tallyPending, found]
    | some t => simp [tallyPending, found, keeps t found]
  · simp [same]

theorem tallyPending_of_tallies_eq {a b : Admission} {t : Tally} (h : b.tallies = a.tallies ++ [t])
    (j : Nat) : b.tallyPending j = if j = a.tallies.length then t.pending else a.tallyPending j := by
  simp only [tallyPending, h, List.getElem?_append]
  by_cases inside : j < a.tallies.length
  · simp [inside, Nat.ne_of_lt inside]
  · by_cases last : j = a.tallies.length
    · simp [last]
    · have past : [t][j - a.tallies.length]? = none := List.getElem?_eq_none (by simp; omega)
      simp [inside, last, past]

theorem mem_sessions_of_tallyOf? {a : Admission} {session i : Nat} (h : a.tallyOf? session = some i) :
    (session, i) ∈ a.sessions := by
  obtain ⟨pre, post, split, -⟩ := List.lookup_eq_some_iff.1 h
  simp [split]

end Admission

/-- Where a call of the gates stands between two of its atomic steps. -/
inductive Stage where
  /-- About to add itself to the server's pending count. -/
  | arriving
  /-- Counted by the server and through its gate; about to look up its session's tally. -/
  | through
  /-- Holding its session's tally; about to count itself in the tally's rate window. -/
  | rating (tally : Nat)
  /-- Within the rate; about to add itself to the tally's pending count. -/
  | queuing (tally : Nat)
  /-- Turned away by the session gate; about to give back its place in the tally. -/
  | leavingTally (tally : Nat)
  /-- Turned away for `reason`; about to give back its place in the server's count. -/
  | leaving (reason : Rejection)
  deriving DecidableEq, Repr

namespace Stage

def server : Stage → Nat
  | .arriving => 0
  | _ => 1

def admitted : Stage → Nat
  | .arriving => 0
  | .leaving .serverPending => 0
  | _ => 1

def tallyPlace (i : Nat) : Stage → Nat
  | .leavingTally j => if j = i then 1 else 0
  | _ => 0

def tally? : Stage → Option Nat
  | .rating i | .queuing i | .leavingTally i => some i
  | _ => none

theorem admitted_le_server (s : Stage) : s.admitted ≤ s.server := by
  cases s with
  | leaving r => cases r <;> decide
  | _ => simp [admitted, server]

theorem server_le_one (s : Stage) : s.server ≤ 1 := by
  cases s <;> simp [server]

end Stage

/-- A call of the gates in progress: its session, its instant and its stage. -/
structure Entry where
  session : Nat
  now : Nat
  stage : Stage := .arriving
  deriving Repr

def Entry.advance (a : Admission) (e : Entry) : Admission × (Entry ⊕ Except Rejection Guard) :=
  let l := a.limits
  match e.stage with
  | .arriving =>
    let stage := if 0 < l.maxPending && l.maxPending ≤ a.pending then Stage.leaving .serverPending
      else .through
    ({ a with pending := a.pending + 1 }, .inl { e with stage })
  | .through =>
    match a.tallyOf? e.session with
    | some i => (a, .inl { e with stage := .rating i })
    | none =>
      ({ a with tallies := a.tallies ++ [{ windowStart := e.now }],
                sessions := a.sessions ++ [(e.session, a.tallies.length)] },
        .inl { e with stage := .rating a.tallies.length })
  | .rating i =>
    let (fits, t) := Tally.tick (a.tallies.getD i { windowStart := e.now }) e.now l.window l.maxSessionRate
    (a.modifyTally i fun _ => t, .inl { e with stage := if fits then .queuing i else .leaving .sessionRate })
  | .queuing i =>
    let previous := (a.tallies.getD i { windowStart := e.now }).pending
    (a.modifyTally i (fun t => { t with pending := t.pending + 1 }),
      if 0 < l.maxSessionPending && l.maxSessionPending ≤ previous then .inl { e with stage := .leavingTally i }
      else .inr (.ok ⟨i⟩))
  | .leavingTally i =>
    (a.modifyTally i (fun t => { t with pending := t.pending - 1 }),
      .inl { e with stage := .leaving .sessionPending })
  | .leaving r => ({ a with pending := a.pending - 1 }, .inr (.error r))

theorem Entry.limits_advance (e : Entry) (a : Admission) : (e.advance a).1.limits = a.limits := by
  unfold Entry.advance
  split
  · rfl
  · split <;> rfl
  · rfl
  · rfl
  · rfl
  · rfl

/-- A call's steps with nothing else going on, at most `fuel` of them: the gates after them and
the call's answer, once it has one. -/
def Entry.alone (a : Admission) (e : Entry) : Nat → Admission × Option (Except Rejection Guard)
  | 0 => (a, none)
  | fuel + 1 =>
    match e.advance a with
    | (a, .inl e) => Entry.alone a e fuel
    | (a, .inr r) => (a, some r)

/-- The gates of one server with everything going on at them: the calls in progress, the guards
held by admitted requests, and the guards being released, which have given back their tally place
but not yet their server place. -/
structure Traffic where
  gates : Admission
  entries : List Entry := []
  guards : List Guard := []
  releasing : List Guard := []

/-- What can happen next at the gates: a call begins, the call at a position takes its next
step, the guard at a position starts to be released or finishes being released, or a session is
forgotten. -/
inductive Traffic.Op where
  | enter (session now : Nat)
  | step (i : Nat)
  | drop (j : Nat)
  | release (k : Nat)
  | removeSession (session : Nat)

namespace Traffic

def start (limits : Limits) : Traffic := { gates := { limits } }

def perform (w : Traffic) : Op → Traffic
  | .enter session now => { w with entries := w.entries ++ [{ session, now }] }
  | .step i =>
    match w.entries[i]? with
    | none => w
    | some e =>
      match e.advance w.gates with
      | (gates, .inl e') => { w with gates, entries := w.entries.set i e' }
      | (gates, .inr (.ok g)) => { w with gates, entries := w.entries.eraseIdx i, guards := w.guards ++ [g] }
      | (gates, .inr (.error _)) => { w with gates, entries := w.entries.eraseIdx i }
  | .drop j =>
    match w.guards[j]? with
    | none => w
    | some g =>
      { w with gates := w.gates.modifyTally g.tally (fun t => { t with pending := t.pending - 1 }),
               guards := w.guards.eraseIdx j, releasing := w.releasing ++ [g] }
  | .release k =>
    match w.releasing[k]? with
    | none => w
    | some _ => { w with gates := { w.gates with pending := w.gates.pending - 1 },
                         releasing := w.releasing.eraseIdx k }
  | .removeSession session => { w with gates := w.gates.removeSession session }

def run (ops : List Op) (w : Traffic) : Traffic := ops.foldl perform w

def serverHeld (w : Traffic) : Nat :=
  (w.entries.map (·.stage.server)).sum + w.guards.length + w.releasing.length

def admitted (w : Traffic) : Nat :=
  (w.entries.map (·.stage.admitted)).sum + w.guards.length + w.releasing.length

def holding (w : Traffic) (i : Nat) : Nat := w.guards.countP (·.tally = i)

def tallyHeld (w : Traffic) (i : Nat) : Nat := (w.entries.map (·.stage.tallyPlace i)).sum + w.holding i

theorem split_of_getElem? {α : Type} {l : List α} {i : Nat} {x : α} (h : l[i]? = some x) :
    ∃ pre post, l = pre ++ x :: post ∧ pre.length = i := by
  obtain ⟨inside, rfl⟩ := List.getElem?_eq_some_iff.1 h
  refine ⟨l.take i, l.drop (i + 1), ?_, by simp; omega⟩
  rw [← List.drop_eq_getElem_cons inside, List.take_append_drop]

theorem eraseIdx_split {α : Type} (pre post : List α) (x : α) :
    (pre ++ x :: post).eraseIdx pre.length = pre ++ post := by
  rw [List.eraseIdx_append_of_length_le (Nat.le_refl _)]
  simp

theorem admitted_le_serverHeld (w : Traffic) : w.admitted ≤ w.serverHeld := by
  have each : (w.entries.map (·.stage.admitted)).sum ≤ (w.entries.map (·.stage.server)).sum :=
    List.sum_le_sum fun e _ => e.stage.admitted_le_server
  simp only [admitted, serverHeld]
  omega

/-- The invariant of the gates: each count is exactly the number of places held in it, the guards
that passed a gate stay within its limit, and every tally that a call or a session refers to
exists. -/
structure Counted (w : Traffic) : Prop where
  server : w.gates.pending = w.serverHeld
  tally : ∀ i, w.gates.tallyPending i = w.tallyHeld i
  admittedBound : 0 < w.gates.limits.maxPending → w.admitted ≤ w.gates.limits.maxPending
  holdingBound : 0 < w.gates.limits.maxSessionPending → ∀ i, w.holding i ≤ w.gates.limits.maxSessionPending
  entriesKnown : ∀ e ∈ w.entries, ∀ i ∈ e.stage.tally?, i < w.gates.tallies.length
  sessionsKnown : ∀ p ∈ w.gates.sessions, p.2 < w.gates.tallies.length

theorem Counted.start (limits : Limits) : (start limits).Counted where
  server := rfl
  tally i := by simp [Traffic.start, tallyHeld, holding, tallyPending]
  admittedBound _ := Nat.zero_le _
  holdingBound _ _ := Nat.zero_le _
  entriesKnown := by simp [Traffic.start]
  sessionsKnown := by simp [Traffic.start]

variable {w : Traffic} {pre post : List Entry} {e : Entry}

theorem Counted.pending_pos_of_entry (h : w.Counted) (mem : e ∈ w.entries) (held : e.stage.server = 1) :
    0 < w.gates.pending := by
  have within := List.le_sum_of_mem (List.mem_map_of_mem (f := (·.stage.server)) mem)
  rw [h.server, serverHeld]
  simp only [held] at within
  omega

theorem Counted.tallyPending_pos_of_entry (h : w.Counted) (mem : e ∈ w.entries) {i : Nat}
    (held : e.stage = .leavingTally i) : 0 < w.gates.tallyPending i := by
  have one : e.stage.tallyPlace i = 1 := by simp [held, Stage.tallyPlace]
  have within := List.le_sum_of_mem (List.mem_map_of_mem (f := (·.stage.tallyPlace i)) mem)
  rw [h.tally, tallyHeld]
  simp only [one] at within
  omega

theorem Counted.tallyPending_pos_of_guard (h : w.Counted) {g : Guard} (mem : g ∈ w.guards) :
    0 < w.gates.tallyPending g.tally := by
  have counted : 0 < w.holding g.tally := List.countP_pos_iff.2 ⟨g, mem, by simp⟩
  rw [h.tally, tallyHeld]
  omega

theorem Counted.pending_pos_of_releasing (h : w.Counted) {g : Guard} (mem : g ∈ w.releasing) :
    0 < w.gates.pending := by
  have counted : 0 < w.releasing.length := List.length_pos_of_mem mem
  rw [h.server, serverHeld]
  omega

theorem Counted.quiescent (h : w.Counted) (idle : w.entries = []) (settled : w.releasing = []) :
    w.gates.pending = w.guards.length ∧
      ∀ s, w.gates.sessionPending s = w.guards.countP fun g => w.gates.tallyOf? s = some g.tally := by
  refine ⟨by simp [h.server, serverHeld, idle, settled], fun s => ?_⟩
  cases current : w.gates.tallyOf? s with
  | none => simp [sessionPending, current]
  | some i =>
    have counted := h.tally i
    simp only [tallyHeld, holding, idle, List.map_nil, List.sum_nil, Nat.zero_add] at counted
    simp only [sessionPending, current, pending_getD, counted, Option.some.injEq]
    exact List.countP_congr fun g _ => by simp [eq_comm]

theorem Counted.moved (h : w.Counted) (split : w.entries = pre ++ e :: post) {gates : Admission}
    {e' : Entry} (limits : gates.limits = w.gates.limits)
    (grows : w.gates.tallies.length ≤ gates.tallies.length)
    (sessions : ∀ p ∈ gates.sessions, p.2 < gates.tallies.length)
    (known : ∀ i ∈ e'.stage.tally?, i < gates.tallies.length)
    (server : gates.pending + e.stage.server = w.gates.pending + e'.stage.server)
    (tally : ∀ i, gates.tallyPending i + e.stage.tallyPlace i = w.gates.tallyPending i + e'.stage.tallyPlace i)
    (withinServer : e'.stage.admitted ≤ e.stage.admitted ∨
      e.stage = .arriving ∧ (0 < w.gates.limits.maxPending → w.gates.pending < w.gates.limits.maxPending)) :
    Counted { w with gates, entries := pre ++ e' :: post } where
  server := by
    have before := h.server
    simp only [serverHeld, split, List.map_append, List.map_cons, List.sum_append, List.sum_cons]
      at before ⊢
    omega
  tally i := by
    have before := h.tally i
    have moves := tally i
    simp only [tallyHeld, holding, split, List.map_append, List.map_cons, List.sum_append,
      List.sum_cons] at before ⊢
    omega
  admittedBound := by
    intro positive
    rw [limits] at positive ⊢
    have before := h.admittedBound positive
    have held := h.server ▸ w.admitted_le_serverHeld
    have one := e'.stage.admitted_le_server.trans e'.stage.server_le_one
    simp only [admitted, split, List.map_append, List.map_cons, List.sum_append, List.sum_cons]
      at before held ⊢
    rcases withinServer with fewer | ⟨arriving, below⟩
    · omega
    · have below := below positive
      have outside : e.stage.admitted = 0 := by rw [arriving]; rfl
      omega
  holdingBound := limits ▸ h.holdingBound
  entriesKnown := by
    intro x mem i found
    simp only [List.mem_append, List.mem_cons] at mem
    rcases mem with inPre | rfl | inPost
    · exact Nat.lt_of_lt_of_le (h.entriesKnown x (by simp [split, inPre]) i found) grows
    · exact known i found
    · exact Nat.lt_of_lt_of_le (h.entriesKnown x (by simp [split, inPost]) i found) grows
  sessionsKnown := sessions

theorem Counted.admits (h : w.Counted) (split : w.entries = pre ++ e :: post) {i : Nat}
    (queuing : e.stage = .queuing i)
    (fits : 0 < w.gates.limits.maxSessionPending →
      w.gates.tallyPending i < w.gates.limits.maxSessionPending) :
    Counted { w with gates := w.gates.modifyTally i fun t => { t with pending := t.pending + 1 },
                     entries := pre ++ post, guards := w.guards ++ [⟨i⟩] } := by
  have known : i < w.gates.tallies.length :=
    h.entriesKnown e (by simp [split]) i (by simp [queuing, Stage.tally?])
  have inServer : e.stage.server = 1 := by rw [queuing]; rfl
  have passed : e.stage.admitted = 1 := by rw [queuing]; rfl
  have nothing : ∀ j, e.stage.tallyPlace j = 0 := by intro j; rw [queuing]; rfl
  constructor
  case server =>
    have before := h.server
    simp only [serverHeld, split, List.map_append, List.map_cons, List.sum_append, List.sum_cons]
      at before ⊢
    simp only [pending_modifyTally, List.length_append, List.length_singleton]
    omega
  case tally =>
    intro j
    have before := h.tally j
    simp only [tallyHeld, holding, split, List.map_append, List.map_cons, List.sum_append,
      List.sum_cons, nothing] at before ⊢
    rw [tallyPending_modifyTally_pending _ known (· + 1), List.countP_append]
    by_cases same : i = j
    · subst same
      simp
      omega
    · simp [same]
      omega
  case admittedBound =>
    intro positive
    simp only [limits_modifyTally] at positive ⊢
    have before := h.admittedBound positive
    simp only [admitted, split, List.map_append, List.map_cons, List.sum_append, List.sum_cons]
      at before ⊢
    simp only [List.length_append, List.length_singleton]
    omega
  case holdingBound =>
    intro positive j
    have before := h.holdingBound positive j
    simp only [limits_modifyTally] at positive ⊢
    simp only [holding, List.countP_append] at before ⊢
    by_cases same : i = j
    · subst same
      have counted := h.tally i
      have below := fits positive
      simp only [tallyHeld, holding] at counted
      simp
      omega
    · simp [same, before]
  case entriesKnown =>
    intro x mem
    exact (length_modifyTally _ _ _).symm ▸ h.entriesKnown x (by simp [split] at mem ⊢; tauto)
  case sessionsKnown => simpa using h.sessionsKnown

theorem Counted.rejects (h : w.Counted) (split : w.entries = pre ++ e :: post) {r : Rejection}
    (leaving : e.stage = .leaving r) :
    Counted { w with gates := { w.gates with pending := w.gates.pending - 1 },
                     entries := pre ++ post } := by
  have inServer : e.stage.server = 1 := by rw [leaving]; rfl
  have nothing : ∀ j, e.stage.tallyPlace j = 0 := by intro j; rw [leaving]; rfl
  constructor
  case server =>
    have before := h.server
    simp only [serverHeld, split, List.map_append, List.map_cons, List.sum_append, List.sum_cons]
      at before ⊢
    omega
  case tally =>
    intro j
    have before := h.tally j
    simp only [tallyHeld, holding, split, List.map_append, List.map_cons, List.sum_append,
      List.sum_cons, nothing, tallyPending_setPending] at before ⊢
    omega
  case admittedBound =>
    intro positive
    have before := h.admittedBound positive
    simp only [admitted, split, List.map_append, List.map_cons, List.sum_append, List.sum_cons]
      at before ⊢
    omega
  case holdingBound => exact h.holdingBound
  case entriesKnown =>
    intro x mem
    exact h.entriesKnown x (by simp [split] at mem ⊢; tauto)
  case sessionsKnown => exact h.sessionsKnown

theorem Counted.step (h : w.Counted) (i : Nat) : (w.perform (.step i)).Counted := by
  cases found : w.entries[i]? with
  | none => simpa [perform, found] using h
  | some e =>
    obtain ⟨pre, post, split, rfl⟩ := split_of_getElem? found
    have set : ∀ e', w.entries.set pre.length e' = pre ++ e' :: post := by simp [split]
    have erased : w.entries.eraseIdx pre.length = pre ++ post := by rw [split, eraseIdx_split]
    have known : ∀ k ∈ e.stage.tally?, k < w.gates.tallies.length :=
      h.entriesKnown e (by simp [split])
    simp only [perform, found]
    cases stage : e.stage with
    | arriving =>
      simp only [Entry.advance, stage, set]
      refine h.moved split rfl (Nat.le_refl _) h.sessionsKnown ?_ ?_ (fun j => ?_) ?_
      · split <;> simp [Stage.tally?]
      · split <;> simp [stage, Stage.server]
      · split <;> simp [stage, Stage.tallyPlace]
      · by_cases full : 0 < w.gates.limits.maxPending ∧ w.gates.limits.maxPending ≤ w.gates.pending
        · left
          simp [full, Stage.admitted]
        · right
          exact ⟨stage, by omega⟩
    | through =>
      have staying : ∀ k, ({ e with stage := .rating k } : Entry).stage.admitted ≤ e.stage.admitted :=
        fun k => by simp [stage, Stage.admitted]
      cases session : w.gates.tallyOf? e.session with
      | some k =>
        have listed := h.sessionsKnown _ (mem_sessions_of_tallyOf? session)
        simp only [Entry.advance, stage, session, set]
        refine h.moved split rfl (Nat.le_refl _) h.sessionsKnown (by simpa [Stage.tally?] using listed)
          (by simp [stage, Stage.server]) (fun j => by simp [stage, Stage.tallyPlace]) (.inl (staying k))
      | none =>
        simp only [Entry.advance, stage, session, set]
        refine h.moved split rfl (by simp) ?_ (by simp [Stage.tally?]) (by simp [stage, Stage.server])
          (fun j => ?_) (.inl (staying _))
        · intro p listed
          simp only [List.mem_append, List.mem_singleton, List.length_append,
            List.length_singleton] at listed ⊢
          rcases listed with old | rfl
          · exact Nat.lt_succ_of_lt (h.sessionsKnown p old)
          · exact Nat.lt_succ_self _
        · rw [tallyPending_of_tallies_eq rfl]
          by_cases fresh : j = w.gates.tallies.length
          · simp [fresh, stage, Stage.tallyPlace, tallyPending]
          · simp [fresh, stage, Stage.tallyPlace]
    | rating k =>
      have listed := known k (by simp [stage, Stage.tally?])
      simp only [Entry.advance, stage, set]
      generalize ticked : Tally.tick (w.gates.tallies.getD k { windowStart := e.now }) e.now
        w.gates.limits.window w.gates.limits.maxSessionRate = result
      obtain ⟨fits, t⟩ := result
      -- the window moves, the pending count stays
      have keeps : t.pending = w.gates.tallyPending k := by
        have := congrArg (·.2.pending) ticked
        simp only [Tally.pending_tick, pending_getD] at this
        exact this.symm
      refine h.moved split rfl (by simp) (by simpa using h.sessionsKnown) ?_ ?_ (fun j => ?_) (.inl ?_)
      · cases fits
        · simp [Stage.tally?]
        · simpa [Stage.tally?] using listed
      · cases fits <;> simp [stage, Stage.server]
      · rw [tallyPending_modifyTally_of_keeps]
        · cases fits <;> simp [stage, Stage.tallyPlace]
        · intro old found
          rw [keeps]
          simp [tallyPending, found]
      · cases fits <;> simp [stage, Stage.admitted]
    | queuing k =>
      have listed := known k (by simp [stage, Stage.tally?])
      simp only [Entry.advance, stage, set, erased, pending_getD]
      by_cases full : 0 < w.gates.limits.maxSessionPending ∧
          w.gates.limits.maxSessionPending ≤ w.gates.tallyPending k
      · simp only [full, decide_true, Bool.and_self, if_true]
        refine h.moved split rfl (by simp) (by simpa using h.sessionsKnown) (by simpa [Stage.tally?] using listed)
          (by simp [stage, Stage.server]) (fun j => ?_) (.inl (by simp [stage, Stage.admitted]))
        rw [tallyPending_modifyTally_pending _ listed (· + 1)]
        by_cases same : k = j
        · simp [same, stage, Stage.tallyPlace]
        · simp [same, stage, Stage.tallyPlace]
      · have fits : ¬(0 < w.gates.limits.maxSessionPending &&
            decide (w.gates.limits.maxSessionPending ≤ w.gates.tallyPending k)) = true := by
          simpa using full
        simp only [fits]
        exact h.admits split stage (fun positive => by omega)
    | leavingTally k =>
      have listed := known k (by simp [stage, Stage.tally?])
      have placed := h.tallyPending_pos_of_entry (by simp [split]) stage
      simp only [Entry.advance, stage, set]
      refine h.moved split rfl (by simp) (by simpa using h.sessionsKnown) (by simp [Stage.tally?])
        (by simp [stage, Stage.server]) (fun j => ?_) (.inl (by simp [stage, Stage.admitted]))
      rw [tallyPending_modifyTally_pending _ listed (· - 1)]
      by_cases same : k = j
      · subst same
        simp [stage, Stage.tallyPlace]
        omega
      · simp [same, stage, Stage.tallyPlace]
    | leaving r =>
      simp only [Entry.advance, stage, erased]
      exact h.rejects split stage

/-- A new call holds no place yet. -/
theorem Counted.enter (h : w.Counted) (session now : Nat) :
    (w.perform (.enter session now)).Counted where
  server := by simp [perform, serverHeld, h.server, Stage.server]
  tally j := by simp [perform, tallyHeld, holding, Stage.tallyPlace, h.tally j]
  admittedBound positive := by
    have before := h.admittedBound positive
    have outside : Stage.arriving.admitted = 0 := rfl
    simp only [perform, admitted, List.map_append, List.map_singleton, List.sum_append,
      List.sum_singleton] at before ⊢
    omega
  holdingBound := h.holdingBound
  entriesKnown := by
    intro x mem
    simp only [perform, List.mem_append, List.mem_singleton] at mem
    rcases mem with old | rfl
    · exact h.entriesKnown x old
    · simp [Stage.tally?]
  sessionsKnown := h.sessionsKnown

theorem Counted.drop (h : w.Counted) (j : Nat) : (w.perform (.drop j)).Counted := by
  cases found : w.guards[j]? with
  | none => simpa [perform, found] using h
  | some g =>
    obtain ⟨pre, post, split, rfl⟩ := split_of_getElem? found
    have erased : w.guards.eraseIdx pre.length = pre ++ post := by rw [split, eraseIdx_split]
    have placed := h.tallyPending_pos_of_guard (g := g) (by simp [split])
    have listed := lt_length_of_tallyPending_pos placed
    simp only [perform, found, erased]
    constructor
    case server =>
      have before := h.server
      simp only [serverHeld, split, pending_modifyTally, List.length_append, List.length_cons,
        List.length_nil] at before ⊢
      omega
    case tally =>
      intro k
      have before := h.tally k
      simp only [tallyHeld, holding, split, List.countP_append, List.countP_cons] at before ⊢
      rw [tallyPending_modifyTally_pending _ listed (· - 1)]
      by_cases same : g.tally = k
      · simp only [same, if_true, decide_true] at before ⊢
        omega
      · simp [same] at before ⊢
        omega
    case admittedBound =>
      intro positive
      simp only [limits_modifyTally] at positive ⊢
      have before := h.admittedBound positive
      simp only [admitted, split, List.length_append, List.length_cons, List.length_nil]
        at before ⊢
      omega
    case holdingBound =>
      intro positive k
      simp only [limits_modifyTally] at positive ⊢
      have before := h.holdingBound positive k
      simp only [holding, split, List.countP_append, List.countP_cons] at before ⊢
      omega
    case entriesKnown => simpa using h.entriesKnown
    case sessionsKnown => simpa using h.sessionsKnown

theorem Counted.release (h : w.Counted) (k : Nat) : (w.perform (.release k)).Counted := by
  cases found : w.releasing[k]? with
  | none => simpa [perform, found] using h
  | some g =>
    obtain ⟨pre, post, split, rfl⟩ := split_of_getElem? found
    have erased : w.releasing.eraseIdx pre.length = pre ++ post := by rw [split, eraseIdx_split]
    simp only [perform, found, erased]
    constructor
    case server =>
      have before := h.server
      simp only [serverHeld, split, List.length_append, List.length_cons] at before ⊢
      omega
    case tally => simpa [tallyHeld, holding] using h.tally
    case admittedBound =>
      intro positive
      have before := h.admittedBound positive
      simp only [admitted, split, List.length_append, List.length_cons] at before ⊢
      omega
    case holdingBound => exact h.holdingBound
    case entriesKnown => exact h.entriesKnown
    case sessionsKnown => exact h.sessionsKnown

theorem Counted.removeSession (h : w.Counted) (session : Nat) :
    (w.perform (.removeSession session)).Counted where
  server := h.server
  tally := h.tally
  admittedBound := h.admittedBound
  holdingBound := h.holdingBound
  entriesKnown := h.entriesKnown
  sessionsKnown := by
    intro p listed
    simp only [perform, Admission.removeSession, List.mem_filter] at listed
    exact h.sessionsKnown p listed.1

theorem Counted.perform (h : w.Counted) : ∀ op, (w.perform op).Counted
  | .enter session now => h.enter session now
  | .step i => h.step i
  | .drop j => h.drop j
  | .release k => h.release k
  | .removeSession session => h.removeSession session

theorem Counted.run (h : w.Counted) (ops : List Op) : (w.run ops).Counted := by
  induction ops generalizing w with
  | nil => exact h
  | cons op rest ih => exact ih (h.perform op)

theorem limits_perform (w : Traffic) : ∀ op, (w.perform op).gates.limits = w.gates.limits
  | .enter _ _ | .removeSession _ => rfl
  | .step i => by
    simp only [perform]
    split
    · rfl
    · rename_i e _
      have kept := e.limits_advance w.gates
      split
      all_goals
        rename_i advanced
        simpa [advanced] using kept
  | .drop j => by
    simp only [perform]
    cases w.guards[j]? <;> rfl
  | .release k => by
    simp only [perform]
    cases w.releasing[k]? <;> rfl

theorem limits_run (w : Traffic) (ops : List Op) : (w.run ops).gates.limits = w.gates.limits := by
  induction ops generalizing w with
  | nil => rfl
  | cons op rest ih => exact (ih (w.perform op)).trans (w.limits_perform op)

end Traffic

/-- Every interleaving of calls, releases and forgotten sessions keeps the gates' promises. Live
guards stay within each limit. With nothing in progress, the server's count is the number of live
guards and each session's count is the number of live guards in its current tally. At every point
each count is exactly the places held in it, so a rejected call, holding none once it has finished,
leaves both counts as they were. Every give-back finds its count positive. -/
theorem admission_counts_exactly_and_never_overadmits (limits : Limits) (ops : List Traffic.Op) :
    let w := (Traffic.start limits).run ops
    (0 < limits.maxPending → w.guards.length + w.releasing.length ≤ limits.maxPending) ∧
    (0 < limits.maxSessionPending → ∀ i, w.holding i ≤ limits.maxSessionPending) ∧
    (w.entries = [] → w.releasing = [] →
      w.gates.pending = w.guards.length ∧
      ∀ s, w.gates.sessionPending s = w.guards.countP fun g => w.gates.tallyOf? s = some g.tally) ∧
    w.gates.pending = w.serverHeld ∧ (∀ i, w.gates.tallyPending i = w.tallyHeld i) ∧
    (∀ e ∈ w.entries, ∀ r, e.stage = .leaving r → 0 < w.gates.pending) ∧
    (∀ e ∈ w.entries, ∀ i, e.stage = .leavingTally i → 0 < w.gates.tallyPending i) ∧
    (∀ g ∈ w.guards, 0 < w.gates.tallyPending g.tally) ∧
    (∀ g ∈ w.releasing, 0 < w.gates.pending) := by
  intro w
  have h : w.Counted := (Traffic.Counted.start limits).run ops
  have fixed : w.gates.limits = limits := Traffic.limits_run _ ops
  refine ⟨fun positive => ?_, fun positive => fixed ▸ h.holdingBound (fixed ▸ positive),
    h.quiescent, h.server, h.tally, fun e mem r leaving => ?_,
    fun e mem i leaving => h.tallyPending_pos_of_entry mem leaving,
    fun g mem => h.tallyPending_pos_of_guard mem, fun g mem => h.pending_pos_of_releasing mem⟩
  · -- the live guards and the guards being released all passed the server gate
    have bound := h.admittedBound (fixed ▸ positive)
    rw [fixed, Traffic.admitted] at bound
    omega
  · exact h.pending_pos_of_entry mem (by simp [leaving, Stage.server])

def Admission.tallyFor (a : Admission) (session now : Nat) : Nat × Admission :=
  match a.tallyOf? session with
  | some i => (i, a)
  | none => (a.tallies.length,
      { a with tallies := a.tallies ++ [{ windowStart := now }],
               sessions := a.sessions ++ [(session, a.tallies.length)] })

def Admission.sessionGates (a : Admission) (i now : Nat) : Except Rejection Guard × Admission :=
  let l := a.limits
  let t := a.tallies.getD i { windowStart := now }
  let (fits, t) := Tally.tick t now l.window l.maxSessionRate
  let a := a.modifyTally i fun _ => t
  if !fits then (.error .sessionRate, a)
  else if 0 < l.maxSessionPending && l.maxSessionPending ≤ t.pending then (.error .sessionPending, a)
  else
    (.ok ⟨i⟩, { a.modifyTally i (fun t => { t with pending := t.pending + 1 }) with
                pending := a.pending + 1 })

theorem Admission.enter_eq (a : Admission) (session now : Nat) :
    a.enter session now =
      if 0 < a.limits.maxPending && a.limits.maxPending ≤ a.pending then (.error .serverPending, a)
      else (a.tallyFor session now).2.sessionGates (a.tallyFor session now).1 now := by
  unfold enter tallyFor sessionGates
  cases a.tallyOf? session <;> rfl

theorem Entry.alone_succ_of_inl {a a' : Admission} {e e' : Entry} (h : e.advance a = (a', .inl e'))
    (n : Nat) : e.alone a (n + 1) = e'.alone a' n := by
  simp [Entry.alone, h]

theorem Entry.advance_through (b : Admission) (session now : Nat) :
    ({ session, now, stage := .through } : Entry).advance { b with pending := b.pending + 1 } =
      ({ (b.tallyFor session now).2 with pending := (b.tallyFor session now).2.pending + 1 },
        .inl { session, now, stage := .rating (b.tallyFor session now).1 }) := by
  have same : ({ b with pending := b.pending + 1 } : Admission).tallyOf? session = b.tallyOf? session := rfl
  simp only [Entry.advance, same, Admission.tallyFor]
  cases b.tallyOf? session <;> rfl

theorem Entry.alone_rating (b : Admission) (session now i : Nat) :
    Entry.alone { b with pending := b.pending + 1 } { session, now, stage := .rating i } 4 =
      ((b.sessionGates i now).2, some (b.sessionGates i now).1) := by
  unfold Admission.sessionGates
  simp only [Entry.alone, Entry.advance]
  generalize ticked : Tally.tick (b.tallies.getD i { windowStart := now }) now b.limits.window
    b.limits.maxSessionRate = result
  obtain ⟨fits, t⟩ := result
  -- the session gate reads the count that the tick left
  have read : ((b.tallies[i]?.map fun _ => t).getD { windowStart := now }).pending = t.pending := by
    have kept := congrArg (·.2.pending) ticked
    simp only [Tally.pending_tick] at kept
    cases found : b.tallies[i]? with
    | some _ => rfl
    | none =>
      simp only [List.getD_eq_getElem?_getD, found, Option.getD_none] at kept
      simp [← kept]
  cases fits
  · simp [Admission.modifyTally]
  · by_cases full : 0 < b.limits.maxSessionPending ∧ b.limits.maxSessionPending ≤ t.pending
    · simp [Admission.modifyTally, full, read, List.modify_modify_eq, Function.comp_def]
    · have below : ¬b.limits.maxSessionPending ≤ t.pending ∨ b.limits.maxSessionPending = 0 := by omega
      rcases below with below | off
      · simp [Admission.modifyTally, read, below]
      · simp [Admission.modifyTally, read, off]

/-- A call with nothing else going on ends within six steps, as `Admission.enter` does: with the
same answer and the same gates. -/
theorem Entry.alone_eq_enter (a : Admission) (session now : Nat) :
    Entry.alone a { session, now } 6 = ((a.enter session now).2, some (a.enter session now).1) := by
  rw [Admission.enter_eq]
  split
  · rename_i full
    simp [Entry.alone, Entry.advance, full]
  · rename_i opened
    have arrives : ({ session, now } : Entry).advance a =
        ({ a with pending := a.pending + 1 }, .inl { session, now, stage := .through }) := by
      simp [Entry.advance, opened]
    rw [Entry.alone_succ_of_inl arrives, Entry.alone_succ_of_inl (Entry.advance_through a session now),
      Entry.alone_rating]

end Switchboard.Server
