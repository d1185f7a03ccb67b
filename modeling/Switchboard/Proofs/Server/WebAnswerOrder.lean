import Mathlib
import Switchboard.Web.Controller
import Switchboard.Proofs.Server.OperationAnswers
/-!
# Answers on a web session: the worker's order and the connection's

`WebBench` is a session between the connection's thread and the fiber's workers. Whatever the
schedule, routed jobs run in the order their requests came (`routed_jobs_run_in_order`), while
answers given on the connection's thread race with them
(`answers_race_between_connection_and_worker`).
-/
namespace Switchboard.Server

/-! ## The queues of a worker pool -/

namespace Fiber

variable {α : Type}

def queue (f : Fiber α) (i : Nat) : List α := (f.queues[i]?).getD []

theorem send_cases (f : Fiber α) (i : Nat) (j : α) :
    i < f.queues.length ∧ f.send i j = (true, { f with queues := f.queues.modify i (· ++ [j]) }) ∨
      f.send i j = (false, f) := by
  unfold send
  split
  · next room =>
    simp only [Bool.and_eq_true, decide_eq_true_eq] at room
    exact .inl ⟨room.2, rfl⟩
  · exact .inr rfl

theorem queue_modify_self {f : Fiber α} {i : Nat} (within : i < f.queues.length) (j : α) :
    ({ f with queues := f.queues.modify i (· ++ [j]) } : Fiber α).queue i = f.queue i ++ [j] := by
  simp [queue, List.getElem?_eq_getElem within]

theorem queue_modify_other (f : Fiber α) {i k : Nat} (other : i ≠ k) (j : α) :
    ({ f with queues := f.queues.modify k (· ++ [j]) } : Fiber α).queue i = f.queue i := by
  simp only [queue, List.getElem?_modify, if_neg (Ne.symm other)]
  cases f.queues[i]? <;> rfl

theorem queue_set_self {f : Fiber α} {i : Nat} (within : i < f.queues.length) (rest : List α) :
    ({ f with queues := f.queues.set i rest } : Fiber α).queue i = rest := by
  simp [queue, within]

theorem queue_set_other (f : Fiber α) {i k : Nat} (other : i ≠ k) (rest : List α) :
    ({ f with queues := f.queues.set k rest } : Fiber α).queue i = f.queue i := by
  simp [queue, Ne.symm other]

theorem take_of_queue_nil {f : Fiber α} {i : Nat} (empty : f.queue i = []) : f.take i = none := by
  unfold take
  split
  · next job rest found => simp [queue, found] at empty
  · rfl

theorem take_of_queue_cons {f : Fiber α} {i : Nat} {j : α} {rest : List α} (found : f.queue i = j :: rest) :
    f.take i = some (j, { f with queues := f.queues.set i rest }) ∧ i < f.queues.length := by
  have entry : f.queues[i]? = some (j :: rest) := by
    unfold queue at found
    cases entry : f.queues[i]? with
    | none => rw [entry] at found; cases found
    | some q => rw [entry] at found; rw [← found]; rfl
  refine ⟨?_, (List.getElem?_eq_some_iff.1 entry).1⟩
  unfold take
  rw [entry]

theorem flatten_of_alone {l : List (List α)} {k : Nat} (alone : ∀ i, i ≠ k → (l[i]?).getD [] = []) :
    l.flatten = (l[k]?).getD [] := by
  induction l generalizing k with
  | nil => rfl
  | cons q qs ih =>
    cases k with
    | zero =>
      have others : ∀ x ∈ qs, x = [] := by
        intro x mem
        obtain ⟨i, within, entry⟩ := List.getElem_of_mem mem
        have empty := alone (i + 1) (by omega)
        rwa [List.getElem?_cons_succ, List.getElem?_eq_getElem within, Option.getD_some, entry] at empty
      rw [List.flatten_cons, List.flatten_eq_nil_iff.2 others, List.append_nil]
      rfl
    | succ k =>
      have head := alone 0 (by omega)
      rw [List.getElem?_cons_zero, Option.getD_some] at head
      have rest : ∀ i, i ≠ k → (qs[i]?).getD [] = [] := fun i other => by
        have empty := alone (i + 1) (by omega)
        rwa [List.getElem?_cons_succ] at empty
      rw [List.flatten_cons, head, List.nil_append, ih rest]
      rfl

theorem waiting_of_alone {f : Fiber α} {k : Nat} (alone : ∀ i, i ≠ k → f.queue i = []) :
    f.waiting = f.queue k :=
  flatten_of_alone alone

@[simp] theorem queue_create (threads i : Nat) : (create threads : Fiber α).queue i = [] := by
  simp only [queue, create, List.getElem?_replicate]
  split <;> rfl

end Fiber

namespace Link

@[simp] theorem admission_send (l : Link) (bytes : List UInt8) : (l.send bytes).admission = l.admission := rfl

@[simp] theorem id_send (l : Link) (bytes : List UInt8) : (l.send bytes).session.id = l.session.id :=
  Session.id_send l.session bytes

@[simp] theorem connected_send (l : Link) (bytes : List UInt8) :
    (l.send bytes).session.connected = l.session.connected := by
  simp only [send, Session.send]
  split <;> rfl

theorem written_send (l : Link) (bytes : List UInt8) (connected : l.session.connected = true) :
    (l.send bytes).session.written = l.session.written ++ bytes := by
  simp [send, Session.send, connected]

@[simp] theorem written_close (l : Link) : l.close.session.written = l.session.written := by
  simp only [close, Session.disconnect]
  split <;> rfl

theorem written_send_of_disconnected (l : Link) (bytes : List UInt8) (closed : l.session.connected = false) :
    (l.send bytes).session.written = l.session.written := by
  simp [send, Session.send, closed]

end Link

theorem Admission.enter_unlimited {a : Admission} (unlimited : a.limits = {}) (session now : Nat) :
    ∃ g a', a.enter session now = (.ok g, a') ∧ a'.limits = {} := by
  unfold Admission.enter
  simp only [unlimited]
  split
  · next closed => simp at closed
  · split <;> simp [Tally.tick, modifyTally, unlimited]

end Switchboard.Server

namespace Switchboard.Web

open Switchboard.Http
open Switchboard.Server

variable {κ : Type}

/-! ## What the connection's thread does with a request -/

namespace Controller

theorem receive_cases (c : Controller κ) {l : Link} (known : l.admission.Known) (now : Nat) (q : Request) :
    (c.receive l now q).1.session.id = l.session.id ∧ (c.receive l now q).1.admission.Known ∧
      ((c.receive l now q).2 = none ∧ (c.receive l now q).1.admission.Counts l.admission [] ∨
        ∃ g, (c.receive l now q).2 = some ⟨c.router.resolve q.method q.url, q, g, wantsClose q⟩ ∧
          (c.receive l now q).1.admission.Counts l.admission [g]) := by
  unfold receive
  dsimp only
  split
  · -- static content answers at once
    refine ⟨?_, ?_, .inl ⟨rfl, ?_⟩⟩ <;> split <;> simp [known, Admission.Counts.refl]
  · split
    · -- the gates turn it away, with `429`
      next r a entered =>
      obtain ⟨known', counts⟩ := Admission.enter_error known entered
      exact ⟨by simp, known', .inl ⟨rfl, counts⟩⟩
    · next g a entered =>
      obtain ⟨known', counts⟩ := Admission.enter_ok known entered
      exact ⟨rfl, known', .inr ⟨g, rfl, counts⟩⟩

theorem onReceived_cases (c : Controller κ) (f : Fiber (WebJob κ)) {l : Link} (known : l.admission.Known)
    (now : Nat) (q : Request) :
    (c.onReceived f l now q).2.session.id = l.session.id ∧ (c.onReceived f l now q).2.admission.Known ∧
      ((c.onReceived f l now q).1 = f ∧ (c.onReceived f l now q).2.admission.Counts l.admission [] ∨
        ∃ j : WebJob κ, j.request = q ∧ l.session.id % f.queues.length < f.queues.length ∧
          (c.onReceived f l now q).1 =
            { f with queues := f.queues.modify (l.session.id % f.queues.length) (· ++ [j]) } ∧
          (c.onReceived f l now q).2.admission.Counts l.admission [j.guard]) := by
  obtain ⟨id, known', way⟩ := c.receive_cases known now q
  unfold onReceived
  generalize c.receive l now q = r at id known' way ⊢
  obtain ⟨l', job?⟩ := r
  dsimp only at id known' way ⊢
  rcases way with ⟨none, counts⟩ | ⟨g, job, counts⟩
  · subst none
    exact ⟨id, known', .inl ⟨rfl, counts⟩⟩
  · subst job
    dsimp only
    rw [id]
    rcases Fiber.send_cases f (l.session.id % f.queues.length)
        ⟨c.router.resolve q.method q.url, q, g, wantsClose q⟩ with ⟨within, queued⟩ | refused
    · -- queued for the session's worker
      rw [Fiber.enqueueKeyed, queued]
      exact ⟨id, known', .inr ⟨_, rfl, within, rfl, counts⟩⟩
    · -- the fiber refuses the job, and its guard is given back
      rw [Fiber.enqueueKeyed, refused]
      exact ⟨id, known'.release g, .inl ⟨rfl, counts.release⟩⟩

@[simp] theorem admission_runJob (run : κ → Request → Option Response) (l : Link) (j : WebJob κ) :
    (runJob run l j).admission = l.admission.release j.guard := by
  unfold runJob
  split <;> rfl

@[simp] theorem id_runJob (run : κ → Request → Option Response) (l : Link) (j : WebJob κ) :
    (runJob run l j).session.id = l.session.id := by
  unfold runJob
  split <;> simp

theorem written_runJob (run : κ → Request → Option Response) (l : Link) (j : WebJob κ) :
    (runJob run l j).session.written = (l.send (dispatch run j.request j.resolution).raw).session.written := by
  unfold runJob
  split <;> simp

theorem connected_runJob (run : κ → Request → Option Response) (l : Link) (j : WebJob κ) :
    (runJob run l j).session.connected = (l.session.connected && !j.close) := by
  unfold runJob
  split <;> simp_all

theorem closed_runJob (run : κ → Request → Option Response) (l : Link) {j : WebJob κ} (closes : j.close = true) :
    (runJob run l j).session.connected = false := by
  simp [connected_runJob, closes]

end Controller

/-! ## The bench -/

/-- One session of a web controller between the connection's thread, which hands the controller
each complete request, and the workers of the received fiber. `received` and `ran` are a record
kept for the proofs: the requests handed over, and the requests whose jobs have run, in order. -/
structure WebBench (κ : Type) where
  link : Link
  fiber : Fiber (WebJob κ)
  received : List Request := []
  ran : List Request := []

namespace WebBench

variable (c : Controller κ) (run : κ → Request → Option Response)

def start (l : Link) (threads : Nat) : WebBench κ := { link := l, fiber := Fiber.create threads }

/-- The connection hands its next complete request to the controller at time `now`; once the
session is closed it hands over no more. -/
def receive (b : WebBench κ) (now : Nat) (q : Request) : WebBench κ :=
  if b.link.session.connected then
    let r := c.onReceived b.fiber b.link now q
    { b with fiber := r.1, link := r.2, received := b.received ++ [q] }
  else b

def work (b : WebBench κ) (worker : Nat) : WebBench κ :=
  match b.fiber.take worker with
  | some (j, f) => { b with fiber := f, link := Controller.runJob run b.link j, ran := b.ran ++ [j.request] }
  | none => b

/-- What can happen next on the session. -/
inductive Action where
  /-- The connection hands over a complete request, at time `now`. -/
  | receive (now : Nat) (request : Request)
  /-- A worker of the received fiber runs its next job. -/
  | work (worker : Nat)

def perform : Action → WebBench κ → WebBench κ
  | .receive now q, b => b.receive c now q
  | .work worker, b => b.work run worker

def steps (actions : List Action) (b : WebBench κ) : WebBench κ :=
  actions.foldl (fun b a => perform c run a b) b

theorem receive_of_connected {b : WebBench κ} (connected : b.link.session.connected = true) (now : Nat)
    (q : Request) :
    b.receive c now q = { b with fiber := (c.onReceived b.fiber b.link now q).1,
                                 link := (c.onReceived b.fiber b.link now q).2, received := b.received ++ [q] } := by
  simp [WebBench.receive, connected]

theorem receive_static {b : WebBench κ} (connected : b.link.session.connected = true) (now : Nat)
    {q : Request} (get : q.method = "GET") {wire : List UInt8} (served : c.staticContent.get? q.url = some wire) :
    b.receive c now q = { b with link := if wantsClose q then (b.link.send wire).close else b.link.send wire,
                                 received := b.received ++ [q] } := by
  rw [receive_of_connected c connected]
  simp [Controller.onReceived, Controller.receive, get, served]

theorem receive_queued {b : WebBench κ} (connected : b.link.session.connected = true) (now : Nat)
    {q : Request} (unserved : c.staticContent.get? q.url = none) {g : Guard} {a : Admission}
    (entered : b.link.admission.enter b.link.session.id now = (.ok g, a)) (accepting : b.fiber.accepting = true)
    (workers : 0 < b.fiber.queues.length) :
    b.receive c now q =
      { b with fiber := { b.fiber with queues := b.fiber.queues.modify (b.link.session.id % b.fiber.queues.length)
                                        (· ++ [⟨c.router.resolve q.method q.url, q, g, wantsClose q⟩]) },
               link := { b.link with admission := a }, received := b.received ++ [q] } := by
  rw [receive_of_connected c connected]
  simp [Controller.onReceived, Controller.receive, unserved, entered, Fiber.enqueueKeyed, Fiber.send, accepting,
    Nat.mod_lt _ workers]

theorem work_head {b : WebBench κ} {i : Nat} {j : WebJob κ} {rest : List (WebJob κ)}
    (found : b.fiber.queue i = j :: rest) :
    b.work run i = { b with fiber := { b.fiber with queues := b.fiber.queues.set i rest },
                            link := Controller.runJob run b.link j, ran := b.ran ++ [j.request] } := by
  rw [WebBench.work, (Fiber.take_of_queue_cons found).1]

/-- What holds of a session started from `l0`, whose jobs go to worker `w`, whatever the schedule:
worker `w` alone has jobs; the requests whose jobs ran, then those of the jobs queued, came in that
order; and the gates count, beyond what they counted at the start, exactly the places of the jobs
queued. -/
structure Sound (l0 : Link) (w : Nat) (b : WebBench κ) : Prop where
  id : b.link.session.id = l0.session.id
  worker : b.link.session.id % b.fiber.queues.length = w
  workers : 0 < b.fiber.queues.length
  alone : ∀ i, i ≠ w → b.fiber.queue i = []
  order : (b.ran ++ (b.fiber.queue w).map (·.request)).Sublist b.received
  known : b.link.admission.Known
  counts : b.link.admission.Counts l0.admission ((b.fiber.queue w).map (·.guard))

variable {c run} {l0 : Link} {w : Nat}

theorem Sound.start (known : l0.admission.Known) (threads : Nat) :
    Sound l0 (l0.session.id % (Fiber.create threads : Fiber (WebJob κ)).queues.length)
      (start l0 threads : WebBench κ) where
  id := rfl
  worker := rfl
  workers := Fiber.length_create_pos threads
  alone i _ := Fiber.queue_create threads i
  order := by simp [WebBench.start]
  known := known
  counts := by simpa [WebBench.start] using Admission.Counts.refl l0.admission

theorem Sound.answered {b : WebBench κ} (h : Sound l0 w b) {l : Link} (id : l.session.id = b.link.session.id)
    (known : l.admission.Known) (counts : l.admission.Counts b.link.admission []) (q : Request) :
    Sound l0 w { b with link := l, received := b.received ++ [q] } where
  id := id.trans h.id
  worker := by rw [← h.worker]; exact congrArg (· % _) id
  workers := h.workers
  alone := h.alone
  order := List.sublist_append_of_sublist_left h.order
  known := known
  counts := by simpa using counts.trans h.counts

theorem Sound.queued {b : WebBench κ} (h : Sound l0 w b) {l : Link} (id : l.session.id = b.link.session.id)
    (known : l.admission.Known) {j : WebJob κ} (within : w < b.fiber.queues.length)
    (counts : l.admission.Counts b.link.admission [j.guard]) :
    Sound l0 w { b with fiber := { b.fiber with queues := b.fiber.queues.modify w (· ++ [j]) }, link := l,
                        received := b.received ++ [j.request] } where
  id := id.trans h.id
  worker := by
    show l.session.id % (b.fiber.queues.modify w _).length = w
    rw [List.length_modify, id]
    exact h.worker
  workers := by simpa using h.workers
  alone i other := by
    rw [Fiber.queue_modify_other _ other]
    exact h.alone i other
  order := by
    show (b.ran ++ (Fiber.queue _ w).map _).Sublist (b.received ++ [j.request])
    rw [Fiber.queue_modify_self within, List.map_append, ← List.append_assoc]
    exact h.order.append_right [j.request]
  known := known
  counts := by
    show l.admission.Counts l0.admission ((Fiber.queue _ w).map _)
    rw [Fiber.queue_modify_self within, List.map_append]
    exact counts.trans h.counts

theorem Sound.ranHead {b : WebBench κ} (h : Sound l0 w b) {j : WebJob κ} {rest : List (WebJob κ)}
    (found : b.fiber.queue w = j :: rest) :
    Sound l0 w { b with fiber := { b.fiber with queues := b.fiber.queues.set w rest },
                        link := Controller.runJob run b.link j, ran := b.ran ++ [j.request] } where
  id := by simpa using h.id
  worker := by simpa using h.worker
  workers := by simpa using h.workers
  alone i other := by
    rw [Fiber.queue_set_other _ other]
    exact h.alone i other
  order := by
    have order := h.order
    rw [found] at order
    rw [Fiber.queue_set_self (Fiber.take_of_queue_cons found).2]
    simpa using order
  known := by simpa using h.known.release j.guard
  counts := by
    have counts := h.counts
    rw [found] at counts
    rw [Fiber.queue_set_self (Fiber.take_of_queue_cons found).2]
    simpa using counts.release

theorem Sound.receive {b : WebBench κ} (h : Sound l0 w b) (now : Nat) (q : Request) :
    Sound l0 w (b.receive c now q) := by
  by_cases connected : b.link.session.connected = true
  · rw [receive_of_connected c connected]
    obtain ⟨id, known, way⟩ := c.onReceived_cases b.fiber h.known now q
    generalize c.onReceived b.fiber b.link now q = r at id known way
    obtain ⟨f, l⟩ := r
    dsimp only at id known way
    rw [h.worker] at way
    rcases way with ⟨same, counts⟩ | ⟨j, request, within, queued, counts⟩
    · subst same
      exact h.answered id known counts q
    · subst queued request
      exact h.queued id known within counts
  · simpa [WebBench.receive, connected] using h

theorem Sound.work {b : WebBench κ} (h : Sound l0 w b) (worker : Nat) : Sound l0 w (b.work run worker) := by
  by_cases mine : worker = w
  · subst mine
    cases found : b.fiber.queue worker with
    | nil => rw [WebBench.work, Fiber.take_of_queue_nil found]; exact h
    | cons j rest =>
      rw [work_head run found]
      exact h.ranHead found
  · -- another worker has none of the session's jobs
    rw [WebBench.work, Fiber.take_of_queue_nil (h.alone worker mine)]
    exact h

theorem Sound.perform {b : WebBench κ} (h : Sound l0 w b) (action : Action) : Sound l0 w (perform c run action b) := by
  cases action with
  | receive now q => exact h.receive now q
  | work worker => exact h.work worker

theorem Sound.steps {b : WebBench κ} (h : Sound l0 w b) (actions : List Action) :
    Sound l0 w (steps c run actions b) := by
  induction actions generalizing b with
  | nil => exact h
  | cons a actions ih => exact ih (h.perform a)

theorem Sound.waiting {b : WebBench κ} (h : Sound l0 w b) : b.fiber.waiting = b.fiber.queue w :=
  Fiber.waiting_of_alone h.alone

end WebBench

open WebBench in
/-- Whatever the schedule of the connection's thread and the fiber's workers, the routed jobs of a
web session run in the order their requests came, each once, and the jobs still queued come after
them; the gates count, beyond what they counted at the start, exactly one place for each job still
queued. -/
theorem routed_jobs_run_in_order (c : Controller κ) (run : κ → Request → Option Response) {l : Link}
    (known : l.admission.Known) (threads : Nat) (actions : List Action) :
    let b := steps c run actions (start l threads)
    (b.ran ++ b.fiber.waiting.map (·.request)).Sublist b.received ∧
      b.link.admission.Counts l.admission (b.fiber.waiting.map (·.guard)) := by
  intro b
  have sound : Sound l _ b := (Sound.start known threads).steps actions
  refine ⟨?_, ?_⟩
  · rw [sound.waiting]
    exact sound.order
  · rw [sound.waiting]
    exact sound.counts

open WebBench in
/-- Two routed requests on a fresh session with one worker, which runs once between them: the
request that ran and the one still queued keep their order, and the gates count the queued one. -/
theorem routed_requests_around_one_run_keep_their_order :
    ({ limits := {} } : Admission).Known ∧
      let b := steps ({ router := ({} : Router Unit).route .get "/api" () } : Controller Unit)
        (fun _ _ => some ({} : Response).makeOk)
        [.receive 0 { method := "GET", url := "/api" }, .work 0, .receive 1 { method := "GET", url := "/api" }]
        (start { admission := { limits := {} }, session := { id := 1 } } 1)
      (b.ran ++ b.fiber.waiting.map (·.request)).Sublist b.received ∧
        b.link.admission.Counts { limits := {} } (b.fiber.waiting.map (·.guard)) := by
  have known : ({ limits := {} } : Admission).Known := by
    intro p mem
    cases mem
  exact ⟨known, routed_jobs_run_in_order _ _ known 1 _⟩

open WebBench in
/-- Answers race between the connection's thread and the session's worker. A route serves
`GET /api` and a static page `/index.html`; on a fresh session the connection hands over two
requests before the worker runs. The page is written before the answer to the request sent first;
a page request that asks to close drops that earlier answer, though its handler ran; and of two
routed requests, the second reaches its handler after the first asked to close. -/
theorem answers_race_between_connection_and_worker :
    let c : Controller Unit :=
      { router := ({} : Router Unit).route .get "/api" ()
        staticContent := ({} : StaticContent).registerFile "/index.html" "index.html" (utf8 "hi") }
    let run : Unit → Request → Option Response := fun _ _ => some ({} : Response).makeOk
    let api : Request := { method := "GET", url := "/api" }
    let page : Request := { method := "GET", url := "/index.html" }
    let closing : Request → Request := fun q => { q with headers := ⟨[("Connection", "close")]⟩ }
    let fresh : WebBench Unit := start { admission := { limits := {} }, session := { id := 1 } } 1
    (steps c run [.receive 0 api, .receive 0 page, .work 0] fresh).link.session.written =
        StaticContent.servedFile "index.html" (utf8 "hi") ++ ({} : Response).makeOk.raw ∧
      (let b := steps c run [.receive 0 api, .receive 0 (closing page), .work 0] fresh
       b.ran = [api] ∧ b.link.session.written = StaticContent.servedFile "index.html" (utf8 "hi")) ∧
      (let b := steps c run [.receive 0 (closing api), .receive 0 api, .work 0, .work 0] fresh
       b.ran = [closing api, api] ∧ b.link.session.written = ({} : Response).makeOk.raw) := by
  intro c run api page closing fresh
  have unserved : c.staticContent.get? "/api" = none := by decide
  have served : c.staticContent.get? "/index.html" = some (StaticContent.servedFile "index.html" (utf8 "hi")) := by
    have path : requestPath "/index.html" = "/index.html" := by decide
    simp [c, StaticContent.get?, StaticContent.registerFile, StaticContent.insert, path]
  have found : c.router.resolve "GET" "/api" = .found () := by
    have path : requestPath "/api" = "/api" := by decide
    have exact : "/api".endsWith "/*" = false := by decide +kernel
    have get : Method.all.find? (·.name == "GET") = some .get := by decide
    simp [c, Router.resolve, Router.route, path, Pattern.ofText, exact, Pattern.rank?, Method.ofName?, get]
  have route : c.router.resolve api.method api.url = .found () := found
  have closingRoute : c.router.resolve (closing api).method (closing api).url = .found () := found
  have pageOpen : wantsClose page = false := by decide
  have pageCloses : wantsClose (closing page) = true := by decide
  have apiCloses : wantsClose (closing api) = true := by decide
  obtain ⟨g, a, entered, limits⟩ := Admission.enter_unlimited (a := fresh.link.admission) rfl 1 0
  refine ⟨?pageOvertakes, ?pageDrops, ?secondRuns⟩
  case pageOvertakes =>
    simp only [steps, List.foldl_cons, List.foldl_nil, perform]
    rw [receive_queued (c := c) (b := fresh) rfl 0 (q := api) unserved entered rfl (by decide),
      receive_static (c := c) rfl 0 (q := page) rfl served, pageOpen, if_neg Bool.false_ne_true]
    simp [WebBench.work, Fiber.take, fresh, WebBench.start, Fiber.create]
    rw [Controller.written_runJob, route, Link.written_send _ _ rfl, Link.written_send _ _ rfl]
    rfl
  case pageDrops =>
    simp only [steps, List.foldl_cons, List.foldl_nil, perform]
    rw [receive_queued (c := c) (b := fresh) rfl 0 (q := api) unserved entered rfl (by decide),
      receive_static (c := c) rfl 0 (q := closing page) rfl served, pageCloses, if_pos rfl]
    -- the job runs, but its answer finds the session closed
    simp [WebBench.work, Fiber.take, fresh, WebBench.start, Fiber.create]
    rw [Controller.written_runJob, Link.written_send_of_disconnected _ _ (Link.connected_close _),
      Link.written_close, Link.written_send _ _ rfl]
    rfl
  case secondRuns =>
    obtain ⟨g', a', entered', -⟩ := Admission.enter_unlimited limits 1 0
    simp only [steps, List.foldl_cons, List.foldl_nil, perform]
    rw [receive_queued (c := c) (b := fresh) rfl 0 (q := closing api) unserved entered rfl (by decide),
      receive_queued (c := c) ?_ 0 (q := api) unserved (g := g') (a := a') ?_ ?_ ?_]
    rotate_left
    · rfl
    · exact entered'
    · rfl
    · simp [fresh, WebBench.start, Fiber.create]
    -- both jobs run; only the first answer goes out, as it closes the session
    simp [WebBench.work, Fiber.take, fresh, WebBench.start, Fiber.create]
    rw [Controller.written_runJob, Link.written_send_of_disconnected _ _ (Controller.closed_runJob _ _ apiCloses),
      Controller.written_runJob, closingRoute, Link.written_send _ _ rfl]
    rfl

end Switchboard.Web
