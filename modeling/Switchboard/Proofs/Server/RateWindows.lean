import Mathlib
import Switchboard.Proofs.Server.OperationAnswers
/-!
# Rate windows

The rate gate passes the first requests of each one-second window of a session and turns the others
away, whatever other sessions, releases and forgotten sessions do in between
(`rate_gate_passes_the_first_requests_of_each_window`).
-/
namespace Switchboard.Server

/-! ## The windows of a history -/

/-- Whether an event falls in the window opened at `o`: a request less than `w` after `o` (an
instant before `o` counts as `o`). A forget falls in no window. -/
def inWindow (w o : Nat) : Option Nat → Bool
  | some now => now - o < w
  | none => false

/-- The rate windows of one session's history of requests (`some` instant) and forgets (`none`),
oldest first, each with the instants of its requests. A request opens a window when none is open;
the window takes the requests that follow, up to the first forget or the first request `w` or
more after its opening. -/
def windows (w : Nat) : List (Option Nat) → List (List Nat)
  | [] => []
  | none :: h => windows w h
  | some o :: h =>
    (o :: (h.takeWhile (inWindow w o)).reduceOption) :: windows w (h.dropWhile (inWindow w o))
termination_by h => h.length
decreasing_by
  · simp
  · have := List.length_dropWhile_le (inWindow w o) h
    simp only [List.length_cons]
    omega

/-- The verdicts on a window of `n` requests at a rate of `N`: the first `N` pass, the others are
turned away. -/
def firstOf (N n : Nat) : List Bool := List.replicate (min n N) true ++ List.replicate (n - N) false

def rateVerdicts (w N : Nat) (h : List (Option Nat)) : List Bool :=
  (windows w h).flatMap fun win => firstOf N win.length

@[simp] theorem windows_nil (w : Nat) : windows w [] = [] := by
  rw [windows]

@[simp] theorem windows_none_cons (w : Nat) (h : List (Option Nat)) :
    windows w (none :: h) = windows w h := by
  rw [windows]

theorem windows_some_cons (w o : Nat) (h : List (Option Nat)) :
    windows w (some o :: h) =
      (o :: (h.takeWhile (inWindow w o)).reduceOption) :: windows w (h.dropWhile (inWindow w o)) := by
  rw [windows]

@[simp] theorem rateVerdicts_nil (w N : Nat) : rateVerdicts w N [] = [] := by
  simp [rateVerdicts]

@[simp] theorem rateVerdicts_none_cons (w N : Nat) (h : List (Option Nat)) :
    rateVerdicts w N (none :: h) = rateVerdicts w N h := by
  simp [rateVerdicts]

theorem rateVerdicts_some_cons (w N o : Nat) (h : List (Option Nat)) :
    rateVerdicts w N (some o :: h) =
      firstOf N ((h.takeWhile (inWindow w o)).reduceOption.length + 1) ++
        rateVerdicts w N (h.dropWhile (inWindow w o)) := by
  simp [rateVerdicts, windows_some_cons]

@[simp] theorem length_firstOf (N n : Nat) : (firstOf N n).length = n := by
  simp only [firstOf, List.length_append, List.length_replicate]
  omega

theorem getElem_firstOf {N n k : Nat} (within : k < (firstOf N n).length) :
    (firstOf N n)[k] = decide (k < N) := by
  have inside : k < n := by simpa using within
  simp only [firstOf, List.getElem_append, List.length_replicate, List.getElem_replicate]
  split <;> simp <;> omega

theorem drop_firstOf {N n k : Nat} (within : k < n) :
    (firstOf N n).drop k = decide (k < N) :: (firstOf N n).drop (k + 1) := by
  rw [List.drop_eq_getElem_cons (by simpa using within), getElem_firstOf]

theorem firstOf_succ {N : Nat} (rated : 0 < N) (n : Nat) :
    firstOf N (n + 1) = true :: (firstOf N (n + 1)).drop 1 := by
  simpa [rated] using drop_firstOf (N := N) (k := 0) (Nat.succ_pos n)

/-! ## One window at a time -/

def Tally.window (t : Tally) : Nat × Nat := (t.windowStart, t.seen)

/-- One request at `now` on a session's window `c` (none while the session has no tally): whether
it passes, and the window after. A request without a window counts in a fresh one opened at its
instant. -/
def windowStep (w N : Nat) (c : Option (Nat × Nat)) (now : Nat) : Bool × (Nat × Nat) :=
  let t := Admission.Tally.tick { windowStart := (c.getD (now, 0)).1, seen := (c.getD (now, 0)).2 } now w N
  (t.1, t.2.window)

/-- One session's verdicts as its tally gives them, from its window `c`. A forget drops the
window. -/
def rateRun (w N : Nat) : Option (Nat × Nat) → List (Option Nat) → List Bool
  | _, [] => []
  | _, none :: h => rateRun w N none h
  | c, some now :: h => (windowStep w N c now).1 :: rateRun w N (some (windowStep w N c now).2) h

namespace Admission.Tally

theorem tick_fresh (now w N : Nat) :
    tick { windowStart := now } now w N = (N == 0 || 1 ≤ N, { windowStart := now, seen := 1 }) := by
  unfold tick
  split <;> rfl

theorem tick_inside {t : Tally} {now w : Nat} (inside : inWindow w t.windowStart (some now) = true)
    (N : Nat) : tick t now w N = (N == 0 || t.seen + 1 ≤ N, { t with seen := t.seen + 1 }) := by
  simp only [inWindow, decide_eq_true_eq] at inside
  have fresh : ¬w ≤ now - t.windowStart := by omega
  simp only [tick, fresh, if_false]

theorem tick_late {t : Tally} {now w : Nat} (late : inWindow w t.windowStart (some now) = false)
    (N : Nat) : tick t now w N = (N == 0 || 1 ≤ N, { t with windowStart := now, seen := 1 }) := by
  simp only [inWindow, decide_eq_false_iff_not, Nat.not_lt] at late
  simp only [tick, late, if_true]

theorem tick_eq_window (t : Tally) (now w N : Nat) :
    tick t now w N =
      ((tick { windowStart := t.windowStart, seen := t.seen } now w N).1,
        { (tick { windowStart := t.windowStart, seen := t.seen } now w N).2 with pending := t.pending }) := by
  unfold tick
  split <;> rfl

end Admission.Tally

section Clock

variable (w : Nat) {N : Nat}

@[simp] theorem rateRun_nil (c : Option (Nat × Nat)) : rateRun w N c [] = [] := by
  simp [rateRun]

@[simp] theorem rateRun_none_cons (c : Option (Nat × Nat)) (h : List (Option Nat)) :
    rateRun w N c (none :: h) = rateRun w N none h := by
  simp [rateRun]

theorem rateRun_fresh (rated : 0 < N) (now : Nat) (h : List (Option Nat)) :
    rateRun w N none (some now :: h) = true :: rateRun w N (some (now, 1)) h := by
  have opens := Admission.Tally.tick_fresh now w N
  simp only [rateRun, windowStep, Option.getD_none]
  rw [opens]
  simp [Tally.window, Nat.one_le_iff_ne_zero.2 (Nat.pos_iff_ne_zero.1 rated)]

theorem rateRun_inside (o k now : Nat) (inside : inWindow w o (some now) = true) (rated : 0 < N)
    (h : List (Option Nat)) :
    rateRun w N (some (o, k)) (some now :: h) = decide (k < N) :: rateRun w N (some (o, k + 1)) h := by
  have counts := Admission.Tally.tick_inside (t := { windowStart := o, seen := k }) inside N
  simp only [rateRun, windowStep, Option.getD_some]
  rw [counts]
  simp [Tally.window, Nat.pos_iff_ne_zero.1 rated]

theorem rateRun_late (o k now : Nat) (late : inWindow w o (some now) = false) (rated : 0 < N)
    (h : List (Option Nat)) :
    rateRun w N (some (o, k)) (some now :: h) = true :: rateRun w N (some (now, 1)) h := by
  have reopens := Admission.Tally.tick_late (t := { windowStart := o, seen := k }) late N
  simp only [rateRun, windowStep, Option.getD_some]
  rw [reopens]
  simp [Tally.window, Nat.one_le_iff_ne_zero.2 (Nat.pos_iff_ne_zero.1 rated)]

theorem rateRun_spec (rated : 0 < N) (h : List (Option Nat)) :
    rateRun w N none h = rateVerdicts w N h ∧
      ∀ o k, rateRun w N (some (o, k)) h =
        (firstOf N (k + (h.takeWhile (inWindow w o)).reduceOption.length)).drop k ++
          rateVerdicts w N (h.dropWhile (inWindow w o)) := by
  induction h with
  | nil => simp [List.drop_eq_nil_of_le]
  | cons e h ih =>
    cases e with
    | none =>
      refine ⟨by simp [ih.1], fun o k => ?_⟩
      simp [inWindow, ih.1, List.drop_eq_nil_of_le]
    | some now =>
      -- a request with no window open opens one, in which it is the first
      have opens : rateRun w N none (some now :: h) = rateVerdicts w N (some now :: h) := by
        rw [rateRun_fresh w rated, ih.2, rateVerdicts_some_cons]
        generalize (h.takeWhile (inWindow w now)).reduceOption.length = m
        rw [Nat.add_comm 1 m]
        conv_rhs => rw [firstOf_succ rated m, List.cons_append]
      refine ⟨opens, fun o k => ?_⟩
      cases inside : inWindow w o (some now)
      case false =>
        rw [rateRun_late w o k now inside rated, ← rateRun_fresh w rated, opens]
        simp [inside, List.drop_eq_nil_of_le]
      case true =>
        rw [rateRun_inside w o k now inside rated, ih.2 o (k + 1)]
        simp only [List.takeWhile_cons, List.dropWhile_cons, inside, if_true,
          List.reduceOption_cons_of_some, List.length_cons]
        generalize (h.takeWhile (inWindow w o)).reduceOption.length = m
        rw [drop_firstOf (k := k) (n := k + (m + 1)) (by omega), List.cons_append, ← Nat.add_assoc,
          Nat.add_right_comm]

/-- From no window, following the requests one at a time gives the verdicts of the windows. -/
theorem rateRun_none (rated : 0 < N) (h : List (Option Nat)) :
    rateRun w N none h = rateVerdicts w N h :=
  (rateRun_spec w rated h).1

end Clock

/-! ## Calls on the gates -/

/-- A call on the gates by any caller: a request of a session at an instant, giving a guard
back, or forgetting a session. -/
inductive Call where
  | enter (session now : Nat)
  | release (g : Guard)
  | forget (session : Nat)

namespace Call

/-- What a call shows of session `s`: `some now` for its request at `now`, `none` when it forgets
`s`. -/
def event (s : Nat) : Call → Option (Option Nat)
  | .enter session now => if session = s then some (some now) else none
  | .release _ => none
  | .forget session => if session = s then some none else none

def history (s : Nat) (calls : List Call) : List (Option Nat) := calls.filterMap (event s)

end Call

def pastRate : Except Rejection Guard → Bool
  | .error .sessionRate => false
  | _ => true

namespace Admission

def call (a : Admission) : Call → Option (Nat × Except Rejection Guard) × Admission
  | .enter session now => (some (session, (a.enter session now).1), (a.enter session now).2)
  | .release g => (none, a.release g)
  | .forget session => (none, a.removeSession session)

def answers (a : Admission) : List Call → List (Nat × Except Rejection Guard)
  | [] => []
  | c :: calls => (a.call c).1.toList ++ (a.call c).2.answers calls

def answersTo (a : Admission) (s : Nat) (calls : List Call) : List (Except Rejection Guard) :=
  (a.answers calls).filterMap fun p => if p.1 = s then some p.2 else none

/-- Session `s`'s window as the gates hold it: when its tally's window opened and the requests
counted there; none while the session has no tally. -/
def windowOf (a : Admission) (s : Nat) : Option (Nat × Nat) :=
  (a.tallyOf? s).bind fun i => a.tallies[i]?.map Tally.window

/-- The sessions the gates know point at tallies they have, no two at the same one. -/
structure Apart (a : Admission) : Prop where
  known : a.Known
  distinct : (a.sessions.map (·.2)).Nodup

/-! ### What one call does -/

theorem tallyFor_cases (a : Admission) (s now : Nat) :
    (a.tallyOf? s = some (a.tallyFor s now).1 ∧ (a.tallyFor s now).2 = a) ∨
      (a.tallyOf? s = none ∧ (a.tallyFor s now).1 = a.tallies.length ∧
        (a.tallyFor s now).2 = { a with tallies := a.tallies ++ [{ windowStart := now }],
                                        sessions := a.sessions ++ [(s, a.tallies.length)] }) := by
  unfold tallyFor
  split
  · next i found => exact .inl ⟨found, rfl⟩
  · next absent => exact .inr ⟨absent, rfl, rfl⟩

theorem sessionGates_frame (a : Admission) (j now : Nat) :
    (a.sessionGates j now).2.sessions = a.sessions ∧ (a.sessionGates j now).2.limits = a.limits ∧
      ∀ i, i ≠ j → (a.sessionGates j now).2.tallies[i]? = a.tallies[i]? := by
  obtain ⟨t, -, rate | full | admitted⟩ := sessionGates_cases a j now
  all_goals
    rw [‹a.sessionGates j now = _›]
    refine ⟨rfl, rfl, fun i other => ?_⟩
    simp [modifyTally, Ne.symm other]

theorem sessionGates_tick (a : Admission) {i : Nat} (within : i < a.tallies.length) (now : Nat) :
    pastRate (a.sessionGates i now).1 =
        (Tally.tick (a.tallies.getD i { windowStart := now }) now a.limits.window a.limits.maxSessionRate).1 ∧
      ((a.sessionGates i now).2.tallies[i]?).map Tally.window =
        some (Tally.tick (a.tallies.getD i { windowStart := now }) now a.limits.window
          a.limits.maxSessionRate).2.window := by
  unfold sessionGates
  dsimp only
  generalize Tally.tick (a.tallies.getD i { windowStart := now }) now a.limits.window
    a.limits.maxSessionRate = ticked
  obtain ⟨fits, t⟩ := ticked
  have present : a.tallies[i]? = some a.tallies[i] := List.getElem?_eq_getElem within
  cases fits
  · simp [pastRate, modifyTally, present]
  · simp only [Bool.not_true, Bool.false_eq_true, if_false]
    split <;> simp [pastRate, modifyTally, present, Tally.window]

theorem enter_frame (a : Admission) (s now : Nat) :
    (a.enter s now).2.limits = a.limits ∧
      ((a.enter s now).2.sessions = a.sessions ∨
        a.tallyOf? s = none ∧ (a.enter s now).2.sessions = a.sessions ++ [(s, a.tallies.length)]) := by
  rw [enter_eq]
  split
  · exact ⟨rfl, .inl rfl⟩
  · obtain ⟨sessions, limits, -⟩ := sessionGates_frame (a.tallyFor s now).2 (a.tallyFor s now).1 now
    rw [sessions, limits]
    rcases tallyFor_cases a s now with ⟨-, same⟩ | ⟨absent, -, made⟩
    · rw [same]
      exact ⟨rfl, .inl rfl⟩
    · rw [made]
      exact ⟨rfl, .inr ⟨absent, rfl⟩⟩

theorem Apart.enter {a : Admission} (apart : a.Apart) (s now : Nat) : (a.enter s now).2.Apart := by
  have known : (a.enter s now).2.Known := by
    cases answer : (a.enter s now).1 with
    | error r => exact (enter_error apart.known (Prod.ext answer rfl)).1
    | ok g => exact (enter_ok apart.known (Prod.ext answer rfl)).1
  refine ⟨known, ?_⟩
  rcases (enter_frame a s now).2 with same | ⟨-, added⟩
  · exact same ▸ apart.distinct
  · -- the new tally's number is past every number in use
    rw [added, List.map_append, List.nodup_append]
    refine ⟨apart.distinct, by simp, fun i used j last => ?_⟩
    obtain ⟨p, mem, rfl⟩ := List.mem_map.1 used
    simp only [List.map_cons, List.map_nil, List.mem_singleton] at last
    exact last ▸ Nat.ne_of_lt (apart.known p mem)

theorem Apart.release {a : Admission} (apart : a.Apart) (g : Guard) : (a.release g).Apart :=
  ⟨apart.known.release g, apart.distinct⟩

theorem Apart.removeSession {a : Admission} (apart : a.Apart) (s : Nat) : (a.removeSession s).Apart where
  known p mem := apart.known p (List.mem_of_mem_filter mem)
  distinct := apart.distinct.sublist (List.filter_sublist.map _)

theorem Apart.call {a : Admission} (apart : a.Apart) : ∀ c, (a.call c).2.Apart
  | .enter s now => apart.enter s now
  | .release g => apart.release g
  | .forget s => apart.removeSession s

theorem limits_call (a : Admission) : ∀ c, (a.call c).2.limits = a.limits
  | .enter s now => (enter_frame a s now).1
  | .release _ => rfl
  | .forget _ => rfl

theorem Apart.tally_ne {a : Admission} (apart : a.Apart) {s s' i j : Nat} (other : s' ≠ s)
    (mine : a.tallyOf? s = some i) (theirs : a.tallyOf? s' = some j) : i ≠ j := by
  rintro rfl
  have same := List.inj_on_of_nodup_map apart.distinct (mem_sessions_of_tallyOf? mine)
    (mem_sessions_of_tallyOf? theirs) rfl
  exact other (Prod.ext_iff.1 same).1.symm

theorem windowOf_congr {a b : Admission} {s : Nat} (same : b.tallyOf? s = a.tallyOf? s)
    (kept : ∀ i, a.tallyOf? s = some i → b.tallies[i]?.map Tally.window = a.tallies[i]?.map Tally.window) :
    b.windowOf s = a.windowOf s := by
  unfold windowOf
  rw [same]
  cases found : a.tallyOf? s with
  | none => rfl
  | some i => exact kept i found

theorem windowOf_enter_of_ne {a : Admission} (apart : a.Apart) {s s' : Nat} (other : s' ≠ s) (now : Nat) :
    (a.enter s' now).2.windowOf s = a.windowOf s := by
  rw [enter_eq]
  split
  · rfl
  · generalize made : a.tallyFor s' now = found
    obtain ⟨j, b⟩ := found
    obtain ⟨sessions, -, kept⟩ := sessionGates_frame b j now
    rcases tallyFor_cases a s' now with ⟨theirs, same⟩ | ⟨-, number, fresh⟩
    · rw [made] at theirs same
      subst same
      exact windowOf_congr (by simp [tallyOf?, sessions])
        fun i mine => by rw [kept i (apart.tally_ne other mine theirs)]
    · rw [made] at number fresh
      obtain rfl : j = a.tallies.length := number
      obtain rfl := fresh
      have skipped : (s == s') = false := by simp [Ne.symm other]
      refine windowOf_congr (by simp [sessions, tallyOf?, List.lookup_append, skipped]) fun i mine => ?_
      -- the session's tally comes before the new one
      have before : i < a.tallies.length := apart.known _ (mem_sessions_of_tallyOf? mine)
      rw [kept i (Nat.ne_of_lt before)]
      exact congrArg _ (List.getElem?_append_left before)

theorem enter_ticks {a : Admission} (apart : a.Apart) (unbounded : a.limits.maxPending = 0) (s now : Nat) :
    pastRate (a.enter s now).1 = (windowStep a.limits.window a.limits.maxSessionRate (a.windowOf s) now).1 ∧
      (a.enter s now).2.windowOf s =
        some (windowStep a.limits.window a.limits.maxSessionRate (a.windowOf s) now).2 := by
  rw [enter_eq, if_neg (by simp [unbounded])]
  generalize made : a.tallyFor s now = found
  obtain ⟨i, b⟩ := found
  -- the tally the request counts in, and the window it held before
  obtain ⟨mine, within, limits, held⟩ : b.tallyOf? s = some i ∧ i < b.tallies.length ∧ b.limits = a.limits ∧
      ({ windowStart := (b.tallies.getD i { windowStart := now }).windowStart,
         seen := (b.tallies.getD i { windowStart := now }).seen } : Tally) =
        { windowStart := ((a.windowOf s).getD (now, 0)).1, seen := ((a.windowOf s).getD (now, 0)).2 } := by
    rcases tallyFor_cases a s now with ⟨found, same⟩ | ⟨absent, number, fresh⟩
    · rw [made] at found same
      subst same
      have within : i < b.tallies.length := apart.known _ (mem_sessions_of_tallyOf? found)
      simp [found, within, windowOf, List.getD_eq_getElem?_getD, Tally.window]
    · rw [made] at number fresh
      obtain rfl : i = a.tallies.length := number
      obtain rfl := fresh
      have absent' : a.sessions.lookup s = none := absent
      simp [tallyOf?, List.lookup_append, absent', windowOf]
  obtain ⟨passes, kept⟩ := sessionGates_tick b within now
  obtain ⟨sessions, -, -⟩ := sessionGates_frame b i now
  rw [Tally.tick_eq_window, limits, held] at passes kept
  have same : (b.sessionGates i now).2.tallyOf? s = some i := by simpa [tallyOf?, sessions] using mine
  refine ⟨passes, ?_⟩
  rw [windowOf, same, Option.bind_some, kept]
  rfl

theorem windowOf_release (a : Admission) (g : Guard) (s : Nat) : (a.release g).windowOf s = a.windowOf s := by
  refine windowOf_congr rfl fun i _ => ?_
  show (a.tallies.modify g.tally _)[i]?.map Tally.window = _
  rw [List.getElem?_modify]
  cases a.tallies[i]? with
  | none => rfl
  | some t => by_cases same : g.tally = i <;> simp [same, Tally.window]

theorem windowOf_removeSession (a : Admission) (s : Nat) : (a.removeSession s).windowOf s = none := by
  have gone : (a.removeSession s).tallyOf? s = none := by
    simp only [tallyOf?, removeSession, List.lookup_eq_none_iff, List.mem_filter, bne_iff_ne]
    exact fun p mem => Ne.symm mem.2
  simp [windowOf, gone]

theorem lookup_filter_of_ne {l : List (Nat × Nat)} {s s' : Nat} (other : s' ≠ s) :
    (l.filter (·.1 != s')).lookup s = l.lookup s := by
  induction l with
  | nil => rfl
  | cons p rest ih =>
    obtain ⟨k, v⟩ := p
    by_cases theirs : k = s'
    · subst theirs
      simp only [List.filter_cons, bne_self_eq_false, Bool.false_eq_true, if_false, ih]
      rw [List.lookup_cons, beq_false_of_ne (Ne.symm other)]
    · simp [theirs, List.lookup_cons, ih]

theorem windowOf_removeSession_of_ne (a : Admission) {s s' : Nat} (other : s' ≠ s) :
    (a.removeSession s').windowOf s = a.windowOf s :=
  windowOf_congr (lookup_filter_of_ne other) fun _ _ => rfl

end Admission

/-! ## A session's window over any run -/

namespace Admission

theorem answersTo_cons (a : Admission) (s : Nat) (c : Call) (calls : List Call) :
    a.answersTo s (c :: calls) =
      ((a.call c).1.toList.filterMap fun p => if p.1 = s then some p.2 else none) ++
        (a.call c).2.answersTo s calls := by
  simp [answersTo, answers, List.filterMap_append]

/-- With the server gate open, each session gets from the gates the verdicts of its own window,
followed a request at a time from the window it has. Requests of other sessions, guards given back
and other sessions forgotten leave its window alone. -/
theorem answersTo_pastRate (s : Nat) (calls : List Call) :
    ∀ (a : Admission), a.Apart → a.limits.maxPending = 0 →
      (a.answersTo s calls).map pastRate =
        rateRun a.limits.window a.limits.maxSessionRate (a.windowOf s) (Call.history s calls) := by
  induction calls with
  | nil => intro a _ _; simp [answersTo, answers, Call.history]
  | cons c calls ih =>
    intro a apart unbounded
    have next := ih (a.call c).2 (apart.call c) (by rw [limits_call, unbounded])
    rw [limits_call] at next
    rw [answersTo_cons, List.map_append, next]
    cases c with
    | enter s' now =>
      by_cases mine : s' = s
      · subst mine
        obtain ⟨passes, ticked⟩ := enter_ticks apart unbounded s' now
        simp only [call] at ticked ⊢
        simp [Call.history, Call.event, rateRun, ← passes, ← ticked]
      · simp [call, Call.history, Call.event, mine, windowOf_enter_of_ne apart mine]
    | release g =>
      simp [call, Call.history, Call.event, List.filterMap_cons, windowOf_release]
    | forget s' =>
      by_cases mine : s' = s
      · subst mine
        simp [call, Call.history, Call.event, windowOf_removeSession]
      · simp [call, Call.history, Call.event, mine, windowOf_removeSession_of_ne a mine]

theorem mem_answers {a : Admission} {calls : List Call} {p : Nat × Except Rejection Guard}
    (mem : p ∈ a.answers calls) : ∃ b : Admission, b.limits = a.limits ∧ ∃ s now, p = (s, (b.enter s now).1) := by
  induction calls generalizing a with
  | nil => simp [answers] at mem
  | cons c calls ih =>
    simp only [answers, List.mem_append] at mem
    rcases mem with here | later
    · cases c with
      | enter s now => exact ⟨a, rfl, s, now, by simpa [call] using here⟩
      | release g => simp [call] at here
      | forget s => simp [call] at here
    · obtain ⟨b, limits, rest⟩ := ih later
      exact ⟨b, limits.trans (limits_call a c), rest⟩

theorem isOk_enter {a : Admission} (unbounded : a.limits.maxPending = 0)
    (unqueued : a.limits.maxSessionPending = 0) (s now : Nat) :
    (a.enter s now).1.isOk = pastRate (a.enter s now).1 := by
  rw [enter_eq, if_neg (by simp [unbounded])]
  obtain ⟨-, limits, -⟩ := sessionGates_frame (a.tallyFor s now).2 (a.tallyFor s now).1 now
  have unqueued' : (a.tallyFor s now).2.limits.maxSessionPending = 0 := by
    rcases tallyFor_cases a s now with ⟨-, same⟩ | ⟨-, -, made⟩
    · rw [same, unqueued]
    · rw [made, unqueued]
  unfold sessionGates
  dsimp only
  generalize Tally.tick _ now _ _ = ticked
  obtain ⟨fits, t⟩ := ticked
  cases fits <;> simp [pastRate, unqueued', Except.isOk, Except.toBool]

theorem isOk_answersTo {a : Admission} (unbounded : a.limits.maxPending = 0)
    (unqueued : a.limits.maxSessionPending = 0) (s : Nat) (calls : List Call) :
    (a.answersTo s calls).map Except.isOk = (a.answersTo s calls).map pastRate := by
  refine List.map_congr_left fun r mem => ?_
  obtain ⟨p, mem, found⟩ := List.mem_filterMap.1 mem
  obtain ⟨b, limits, s', now, rfl⟩ := mem_answers mem
  have answer : (b.enter s' now).1 = r := by
    split at found
    · exact Option.some.inj found
    · cases found
  rw [← answer]
  exact isOk_enter (limits ▸ unbounded) (limits ▸ unqueued) s' now

end Admission

/-- The rate gate of a server whose settings allow `N > 0` requests per second per session, with
the server's pending gate open: for any calls of any sessions on the gates, the requests of each
session get past the rate gate exactly when they are among the first `N` of their window, every
request of the session counting whatever the gates answer it. With the session's pending gate
open too, these are exactly the requests admitted. -/
theorem rate_gate_passes_the_first_requests_of_each_window (settings : ServerSettings) (s : Nat)
    (calls : List Call) (rated : 0 < settings.maxSessionRequestPerSecond)
    (unbounded : settings.maxPendingRequest = 0) :
    ((Admission.ofSettings settings).answersTo s calls).map pastRate =
        rateVerdicts nanosPerSecond settings.maxSessionRequestPerSecond (Call.history s calls) ∧
      (settings.maxSessionPendingRequest = 0 →
        ((Admission.ofSettings settings).answersTo s calls).map Except.isOk =
          rateVerdicts nanosPerSecond settings.maxSessionRequestPerSecond (Call.history s calls)) := by
  have start : (Admission.ofSettings settings).Apart := ⟨fun p mem => (by cases mem), List.nodup_nil⟩
  have passes := Admission.answersTo_pastRate s calls _ start unbounded
  change _ = rateRun nanosPerSecond settings.maxSessionRequestPerSecond none _ at passes
  rw [rateRun_none _ rated] at passes
  exact ⟨passes, fun unqueued => (Admission.isOk_answersTo unbounded unqueued s calls).trans passes⟩

end Switchboard.Server

namespace Switchboard.Server

/-- Three requests a second: of four requests in the second opened at the start, the fourth is
turned away, 999 ms in; another session's request does not count; at one second a new window
lets three more through; a session forgotten and seen again starts afresh. -/
theorem three_a_second_turn_away_the_fourth :
    0 < ({ maxSessionRequestPerSecond := 3 } : ServerSettings).maxSessionRequestPerSecond ∧
      ({ maxSessionRequestPerSecond := 3 } : ServerSettings).maxPendingRequest = 0 ∧
      ((Admission.ofSettings { maxSessionRequestPerSecond := 3 }).answersTo 1
          [.enter 1 0, .enter 1 0, .enter 1 0, .enter 1 999000000, .enter 2 0, .enter 1 1000000000,
            .enter 1 1000000000, .enter 1 1000000000, .enter 1 1000000000, .forget 1,
            .enter 1 1000000001]).map pastRate =
        [true, true, true, false, true, true, true, false, true] := by
  refine ⟨by decide, rfl, ?_⟩
  rw [(rate_gate_passes_the_first_requests_of_each_window { maxSessionRequestPerSecond := 3 } 1 _
    (by decide) rfl).1]
  simp [Call.history, Call.event, rateVerdicts, windows_some_cons, inWindow, firstOf, nanosPerSecond]

end Switchboard.Server
