import Switchboard.Server.Launch

/-!
# Starting a group of servers

A group starts its servers in order and stops those it started at the first failure
(`startAll_cases`). For servers that keep a running flag as `Launches` says, a failed start leaves
every flag as it was (`failed_group_start_leaves_every_server_as_it_was`), and a host's servers
are such servers (`Host.launches`).
-/

namespace Switchboard.Server

variable {ι W ε : Type} (S : Servers ι W ε)

/-- `S.StartsAll servers w w'`: starting the servers in order from `w` succeeds each time and ends
in `w'`. -/
inductive Servers.StartsAll (S : Servers ι W ε) : List ι → W → W → Prop
  | nil (w : W) : S.StartsAll [] w w
  | cons {i : ι} {rest : List ι} {w w₁ w' : W} (first : S.start i w = (.ok (), w₁))
      (more : S.StartsAll rest w₁ w') : S.StartsAll (i :: rest) w w'

def Servers.stopped (servers : List ι) (w : W) : W :=
  servers.foldl (fun w j => S.stop j w) w

@[simp] theorem Servers.stopped_nil (w : W) : S.stopped [] w = w := rfl

@[simp] theorem Servers.stopped_cons (i : ι) (rest : List ι) (w : W) :
    S.stopped (i :: rest) w = S.stopped rest (S.stop i w) := rfl

/-! ## The two ways a group start ends -/

theorem Servers.startAll_go_cases (started servers : List ι) (w : W) :
    (∃ w', S.StartsAll servers w w' ∧ Servers.startAll.go S started servers w = (.ok (), w')) ∨
    ∃ e pre i post w₁ w₂, servers = pre ++ i :: post ∧ S.StartsAll pre w w₁ ∧
      S.start i w₁ = (.error e, w₂) ∧
      Servers.startAll.go S started servers w = (.error e, S.stopped (started ++ pre) w₂) := by
  induction servers generalizing started w with
  | nil => exact Or.inl ⟨w, .nil w, rfl⟩
  | cons i rest ih =>
    rcases first : S.start i w with ⟨e | _, w₁⟩
    · -- `i` fails first: nothing of this list was started
      refine Or.inr ⟨e, [], i, rest, w, w₁, rfl, .nil w, first, ?_⟩
      simp only [Servers.startAll.go, first, List.append_nil]
      rfl
    · -- `i` starts and the run goes on with it among the started servers
      have step : Servers.startAll.go S started (i :: rest) w =
          Servers.startAll.go S (started ++ [i]) rest w₁ := by
        simp only [Servers.startAll.go, first]
      rw [step]
      rcases ih (started ++ [i]) w₁ with ⟨w', all, ran⟩ | ⟨e, pre, j, post, w₂, w₃, split, ok, failed, ran⟩
      · exact Or.inl ⟨w', .cons first all, ran⟩
      · refine Or.inr ⟨e, i :: pre, j, post, w₂, w₃, by rw [split]; rfl, .cons first ok, failed, ?_⟩
        rw [ran, List.append_assoc, List.singleton_append]

/-- A group start either starts every server, or starts a prefix, fails at the next server and
stops that prefix again. -/
theorem Servers.startAll_cases (servers : List ι) (w : W) :
    (∃ w', S.StartsAll servers w w' ∧ S.startAll servers w = (.ok (), w')) ∨
    ∃ e pre i post w₁ w₂, servers = pre ++ i :: post ∧ S.StartsAll pre w w₁ ∧
      S.start i w₁ = (.error e, w₂) ∧ S.startAll servers w = (.error e, S.stopped pre w₂) :=
  S.startAll_go_cases [] servers w

/-! ## Running flags -/

/-- What a group's rollback relies on of its servers, read through a running flag. -/
structure Servers.Launches (running : ι → W → Bool) : Prop where
  /-- A start that succeeds found the server stopped (a running server refuses to start) and
  leaves it running. -/
  start_ok : ∀ i w w', S.start i w = (.ok (), w') → running i w = false ∧ running i w' = true
  /-- A start that fails leaves the flag as it was. -/
  start_error : ∀ i w e w', S.start i w = (.error e, w') → running i w' = running i w
  stop : ∀ i w, running i (S.stop i w) = false
  start_frame : ∀ i j w, j ≠ i → running j (S.start i w).2 = running j w
  stop_frame : ∀ i j w, j ≠ i → running j (S.stop i w) = running j w

/-! ## The servers of a host -/

theorem Endpoint.running_start (s : Endpoint) (bound : List Net.Binding) (spawn : Except OsError Unit) :
    ((s.start bound spawn).1 = .ok () → s.running = false ∧ (s.start bound spawn).2.1.running = true) ∧
      ∀ e, (s.start bound spawn).1 = .error e → (s.start bound spawn).2.1.running = s.running := by
  unfold Endpoint.start
  split
  · simp
  split
  · simp
  split
  · simp
  next stopped => split <;> simp [stopped]

theorem Host.group_start {n : Nat} (i : Fin n) (h : Host n) :
    (Host.group n).start i h = (((h.servers i).start h.bound (h.spawn i)).1,
      { h with servers := fun j => if j = i then ((h.servers i).start h.bound (h.spawn i)).2.1 else h.servers j,
               bound := ((h.servers i).start h.bound (h.spawn i)).2.2 }) := rfl

/-- The servers of a host are servers a group can roll back. -/
theorem Host.launches (n : Nat) : (Host.group n).Launches (fun i h => (h.servers i).running) where
  start_ok i h h' started := by
    rw [Host.group_start, Prod.mk.injEq] at started
    obtain ⟨ok, rfl⟩ := started
    simpa using (Endpoint.running_start _ _ _).1 ok
  start_error i h e h' failed := by
    rw [Host.group_start, Prod.mk.injEq] at failed
    obtain ⟨refused, rfl⟩ := failed
    simpa using (Endpoint.running_start _ _ _).2 e refused
  stop i h := by simp [Host.group, Endpoint.stop]
  start_frame i j h other := by simp [Host.group_start, other]
  stop_frame i j h other := by simp [Host.group, other]

/-! ## Rolling back -/

section Launches

variable {S} {running : ι → W → Bool} (launches : S.Launches running)
include launches

theorem Servers.StartsAll.running_of_not_mem {servers : List ι} {w w' : W} (all : S.StartsAll servers w w')
    {x : ι} (absent : x ∉ servers) : running x w' = running x w := by
  induction all with
  | nil => rfl
  | @cons i rest w w₁ w' first more ih =>
    have kept : running x w₁ = running x w := by
      simpa only [first] using launches.start_frame i x w (List.ne_of_not_mem_cons absent)
    rw [ih (List.not_mem_of_not_mem_cons absent), kept]

theorem Servers.StartsAll.running_of_running {servers : List ι} {w w' : W} (all : S.StartsAll servers w w')
    {x : ι} (runs : running x w = true) : running x w' = true := by
  induction all with
  | nil => exact runs
  | @cons i rest w w₁ w' first more ih =>
    apply ih
    by_cases same : x = i
    · subst same
      exact (launches.start_ok x w w₁ first).2
    · simpa only [first, runs] using launches.start_frame i x w same

theorem Servers.StartsAll.running_of_mem {servers : List ι} {w w' : W} (all : S.StartsAll servers w w')
    {x : ι} (mem : x ∈ servers) : running x w = false ∧ running x w' = true := by
  induction all with
  | nil => cases mem
  | @cons i rest w w₁ w' first more ih =>
    by_cases same : x = i
    · subst same
      have started := launches.start_ok x w w₁ first
      exact ⟨started.1, more.running_of_running launches started.2⟩
    · -- `x` starts later in the list; the start of `i` leaves its flag alone
      have later := ih ((List.mem_cons.1 mem).resolve_left same)
      have kept : running x w₁ = running x w := by
        simpa only [first] using launches.start_frame i x w same
      exact ⟨kept ▸ later.1, later.2⟩

theorem Servers.Launches.running_stopped_of_not_mem (servers : List ι) (w : W) {x : ι} (absent : x ∉ servers) :
    running x (S.stopped servers w) = running x w := by
  induction servers generalizing w with
  | nil => rfl
  | cons i rest ih =>
    rw [Servers.stopped_cons, ih _ (List.not_mem_of_not_mem_cons absent),
      launches.stop_frame i x w (List.ne_of_not_mem_cons absent)]

theorem Servers.Launches.running_stopped_of_mem (servers : List ι) (w : W) {x : ι} (mem : x ∈ servers) :
    running x (S.stopped servers w) = false := by
  induction servers generalizing w with
  | nil => cases mem
  | cons i rest ih =>
    rw [Servers.stopped_cons]
    by_cases later : x ∈ rest
    · exact ih _ later
    · -- the last stop of `x` is this one
      have same : x = i := (List.mem_cons.1 mem).resolve_right later
      subst same
      rw [launches.running_stopped_of_not_mem rest _ later, launches.stop]

theorem Servers.Launches.running_rolled_back {pre : List ι} {i : ι} {e : ε} {w w₁ w₂ : W}
    (ok : S.StartsAll pre w w₁) (failed : S.start i w₁ = (.error e, w₂)) (x : ι) :
    running x (S.stopped pre w₂) = running x w := by
  by_cases mem : x ∈ pre
  · -- started by the group, so stopped before and stopped again
    rw [launches.running_stopped_of_mem pre w₂ mem, (ok.running_of_mem launches mem).1]
  · -- never started by the group; the failed start keeps its flag whether it is `x` or not
    have at_failure : running x w₂ = running x w₁ := by
      by_cases same : x = i
      · subst same
        exact launches.start_error x w₁ e w₂ failed
      · simpa only [failed] using launches.start_frame i x w₁ same
    rw [launches.running_stopped_of_not_mem pre w₂ mem, at_failure, ok.running_of_not_mem launches mem]

/-- A group start that fails at a server has started the servers before it, has stopped them
again and never touched the servers after it, and leaves every server's running flag as it was,
even when a server stands in the group more than once. A group start that succeeds leaves every
server of the group running. -/
theorem failed_group_start_leaves_every_server_as_it_was (servers : List ι) (w : W) :
    ((S.startAll servers w).1 = .ok () → ∀ i ∈ servers, running i (S.startAll servers w).2 = true) ∧
    ∀ e, (S.startAll servers w).1 = .error e →
      (∃ pre i post w₁ w₂, servers = pre ++ i :: post ∧ S.StartsAll pre w w₁ ∧
        S.start i w₁ = (.error e, w₂) ∧ (S.startAll servers w).2 = S.stopped pre w₂) ∧
      ∀ x, running x (S.startAll servers w).2 = running x w := by
  rcases S.startAll_cases servers w with ⟨w', all, ran⟩ | ⟨e, pre, i, post, w₁, w₂, split, ok, failed, ran⟩
  · rw [ran]
    refine ⟨fun _ x mem => (all.running_of_mem launches mem).2, ?_⟩
    intro e wrong
    cases wrong
  · rw [ran]
    refine ⟨?_, ?_⟩
    · intro wrong
      cases wrong
    intro e' same
    cases same
    exact ⟨⟨pre, i, post, w₁, w₂, split, ok, failed, rfl⟩, launches.running_rolled_back ok failed⟩

end Launches

/-- A server standing twice in a group is refused at its second start, as it already runs, and
the group stops it again. -/
theorem server_twice_in_a_group_ends_stopped :
    (Host.group 1).Launches (fun i h => (h.servers i).running) ∧
    ((Host.group 1).startAll [0, 0]
      { servers := fun _ => { kind := .tcp, settings := {} }, bound := [] }).1 =
      .error (.alreadyStarted "protonnet") ∧
    (((Host.group 1).startAll [0, 0]
      { servers := fun _ => { kind := .tcp, settings := {} }, bound := [] }).2.servers 0).running = false := by
  have refused : ((Host.group 1).startAll [0, 0]
      { servers := fun _ => { kind := .tcp, settings := {} }, bound := [] }).1 =
      .error (.alreadyStarted "protonnet") := by rfl
  have kept := ((failed_group_start_leaves_every_server_as_it_was (Host.launches 1) [0, 0] _).2 _ refused).2 0
  exact ⟨Host.launches 1, refused, kept⟩

/-! ## Starting the servers of a list -/

/-- A `startGroup` that fails, whatever its threads' spawns give, gives back every server with the
running flag it came with. -/
theorem startGroup_restores_running (servers : List Endpoint) (spawn : Fin servers.length → Except OsError Unit)
    {e : ServerError} (failed : (startGroup servers spawn).1 = some e) :
    (startGroup servers spawn).2.map (·.running) = servers.map (·.running) := by
  rcases (Host.group servers.length).startAll_cases (List.finRange servers.length)
      { servers := fun i => servers[i], bound := [], spawn } with
    ⟨w', -, ran⟩ | ⟨e', pre, i, post, w₁, w₂, -, ok, stopped, ran⟩
  · simp only [startGroup, ran] at failed
    cases failed
  · have kept := (Host.launches servers.length).running_rolled_back ok stopped
    simp only [startGroup, ran]
    apply List.ext_getElem (by simp)
    intro k inside _
    simpa using kept ⟨k, by simpa using inside⟩

theorem startGroup_runs_every_server (servers : List Endpoint) (spawn : Fin servers.length → Except OsError Unit)
    (started : (startGroup servers spawn).1 = none) : ∀ s ∈ (startGroup servers spawn).2, s.running = true := by
  rcases (Host.group servers.length).startAll_cases (List.finRange servers.length)
      { servers := fun i => servers[i], bound := [], spawn } with
    ⟨w', all, ran⟩ | ⟨e, pre, i, post, w₁, w₂, -, -, -, ran⟩
  · simp only [startGroup, ran, List.mem_ofFn]
    rintro s ⟨k, rfl⟩
    exact (all.running_of_mem (Host.launches servers.length) (List.mem_finRange k)).2
  · simp only [startGroup, ran] at started
    cases started

end Switchboard.Server
