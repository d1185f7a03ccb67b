import Switchboard.Proofs.Http.Feeding
/-!
# Receiving a message in pieces

A message read in pieces, its header block first, shared by requests and responses through a
`Reader`: the block is acted on in the read that completes its terminator, reading in pieces fails
exactly when reading at once does, and a framed body completes with the message read at once
(`complete_receiveChunks`).
-/
namespace Switchboard.Http

/-- The operations by which a message is received: whether its header block is still awaited,
whether it is settled (complete or failed), and feeding header or body bytes. -/
structure Receiver (ρ : Type) where
  pending : ρ → Bool
  settled : ρ → Bool
  header : ρ → List UInt8 → Bool × ρ
  body : ρ → List UInt8 → Bool × ρ

namespace Receiver

variable {ρ : Type} (R : Receiver ρ)

/-- Feeds one read: to the header block while it is awaited, followed by an empty body read as soon
as the block has been read; otherwise to the body. Answers whether the message is complete. -/
def receive (r : ρ) (bytes : List UInt8) : Bool × ρ :=
  if R.pending r then
    match R.header r bytes with
    | (true, r) => R.body r []
    | (false, r) => (false, r)
  else R.body r bytes

def receiveChunks (r : ρ) : List (List UInt8) → ρ
  | [] => r
  | c :: cs => if R.settled r then r else receiveChunks (R.receive r c).2 cs

theorem receive_of_pending {r : ρ} (h : R.pending r = true) (bytes : List UInt8) :
    R.receive r bytes =
      if (R.header r bytes).1 then R.body (R.header r bytes).2 [] else (false, (R.header r bytes).2) := by
  simp only [receive, h, if_true]
  cases R.header r bytes with
  | mk done r' => cases done <;> rfl

theorem receive_of_not_pending {r : ρ} (h : R.pending r = false) (bytes : List UInt8) :
    R.receive r bytes = R.body r bytes := by
  simp [receive, h]

theorem receiveChunks_cons {r : ρ} (h : R.settled r = false) (c : List UInt8) (cs : List (List UInt8)) :
    R.receiveChunks r (c :: cs) = R.receiveChunks (R.receive r c).2 cs := by
  simp [receiveChunks, h]

theorem receiveChunks_of_settled {r : ρ} (h : R.settled r = true) (cs : List (List UInt8)) :
    R.receiveChunks r cs = r := by
  cases cs with
  | nil => rfl
  | cons c cs => simp [receiveChunks, h]

theorem receiveChunks_append (r : ρ) (xs ys : List (List UInt8)) :
    R.receiveChunks r (xs ++ ys) = R.receiveChunks (R.receiveChunks r xs) ys := by
  induction xs generalizing r with
  | nil => rfl
  | cons c cs ih =>
    by_cases h : R.settled r = true
    · simp [receiveChunks, h, receiveChunks_of_settled]
    · simp [receiveChunks, h, ih]

theorem receive_map {σ : Type} (S : Receiver σ) (f : σ → ρ) (pending : ∀ s, R.pending (f s) = S.pending s)
    (header : ∀ s c, R.header (f s) c = ((S.header s c).1, f (S.header s c).2))
    (body : ∀ s c, R.body (f s) c = ((S.body s c).1, f (S.body s c).2)) (s : σ) (c : List UInt8) :
    R.receive (f s) c = ((S.receive s c).1, f (S.receive s c).2) := by
  simp only [receive, pending]
  split
  · rw [header]
    cases S.header s c with
    | mk done s' => cases done <;> simp [body]
  · exact body s c

theorem receiveChunks_map {σ : Type} (S : Receiver σ) (f : σ → ρ)
    (pending : ∀ s, R.pending (f s) = S.pending s) (settled : ∀ s, R.settled (f s) = S.settled s)
    (header : ∀ s c, R.header (f s) c = ((S.header s c).1, f (S.header s c).2))
    (body : ∀ s c, R.body (f s) c = ((S.body s c).1, f (S.body s c).2))
    (s : σ) (cs : List (List UInt8)) :
    R.receiveChunks (f s) cs = f (S.receiveChunks s cs) := by
  induction cs generalizing s with
  | nil => rfl
  | cons c cs ih =>
    simp only [receiveChunks, settled, R.receive_map S f pending header body, ih]
    split <;> rfl

end Receiver

end Switchboard.Http

namespace Switchboard.Http

/-- How one kind of message reads its start line: the header whose values hold its cookies, what
the start line means, and whether a message with that meaning, or with none yet, has no body
unless it declares a length. -/
structure Reader (α : Type) where
  cookieHeader : String
  read : StartLine → Except HttpError α
  bodyless : Option α → Bool

/-- A message being received, with the meaning of its start line once it has been read. -/
structure Reception (α : Type) where
  message : Message := {}
  answer : Option α := none

/-- Two receptions that hold the same message: the same start line, fields, cookies, body and
declared body length. -/
structure Reception.Same {α : Type} (s s' : Reception α) : Prop where
  answer : s.answer = s'.answer
  headers : s.message.headers = s'.message.headers
  cookies : s.message.cookies = s'.message.cookies
  body : s.message.body = s'.message.body
  bodyLength : s.message.bodyLength = s'.message.bodyLength

namespace Reader

variable {α : Type} (R : Reader α)

def receiver : Receiver (Reception α) where
  pending s := s.message.isPendingHeader
  settled s := s.message.state == .complete || s.message.state == .errorSet
  header s bytes :=
    match s.message.receiveHeader bytes R.cookieHeader R.read with
    | (some a, m) => (true, ⟨m, some a⟩)
    | (none, m) => (false, { s with message := m })
  body s bytes :=
    let r := s.message.receiveBody bytes (R.bodyless s.answer)
    (r.1, { s with message := r.2 })

theorem header_message (s : Reception α) (bytes : List UInt8) :
    (R.receiver.header s bytes).2.message = (s.message.receiveHeader bytes R.cookieHeader R.read).2 := by
  simp only [receiver]
  split <;> simp_all

theorem header_done (s : Reception α) (bytes : List UInt8) :
    (R.receiver.header s bytes).1 = (s.message.receiveHeader bytes R.cookieHeader R.read).1.isSome := by
  simp only [receiver]
  split <;> simp_all

theorem header_answer (s : Reception α) (bytes : List UInt8) :
    (R.receiver.header s bytes).2.answer =
      ((s.message.receiveHeader bytes R.cookieHeader R.read).1.map some).getD s.answer := by
  simp only [receiver]
  split <;> simp_all

theorem settled_of_errorSet {s : Reception α} (h : s.message.state = .errorSet) :
    R.receiver.settled s = true := by
  simp [receiver, h]

theorem settled_of_complete {s : Reception α} (h : s.message.state = .complete) :
    R.receiver.settled s = true := by
  simp [receiver, h]

theorem settled_of_headerPending {p : List UInt8} {s : Reception α} (h : s.message.HeaderPending p) :
    R.receiver.settled s = false := by
  simp only [receiver, h.state]
  split <;> rfl

theorem settled_of_bodyPending {q : List UInt8} {s : Reception α} (h : s.message.BodyPending q) :
    R.receiver.settled s = false := by
  simp only [receiver, h.state]
  rfl

theorem receiveChunks_headerPending {p : List UInt8} {s : Reception α} (h : s.message.HeaderPending p)
    (cs : List (List UInt8)) (none : findTerminator (p ++ cs.flatten) 0 = none) :
    (R.receiver.receiveChunks s cs).message.HeaderPending (p ++ cs.flatten) ∧
      (R.receiver.receiveChunks s cs).answer = s.answer := by
  induction cs generalizing p s with
  | nil =>
    simp only [Receiver.receiveChunks, List.flatten_nil, List.append_nil, and_true]
    exact h
  | cons c cs ih =>
    have later : findTerminator (p ++ c ++ cs.flatten) 0 = Option.none := by
      simpa [List.append_assoc] using none
    have first : findTerminator (p ++ c) 0 = Option.none :=
      findTerminator_eq_none_of_append cs.flatten later
    obtain ⟨nothing, pending⟩ := Message.headerPending_receiveHeader c R.cookieHeader R.read h first
    have step : R.receiver.receive s c =
        (false, { s with message := (s.message.receiveHeader c R.cookieHeader R.read).2 }) := by
      simp only [Receiver.receive, receiver, Message.isPendingHeader_of_headerPending h, if_true]
      rcases read : s.message.receiveHeader c R.cookieHeader R.read with ⟨_ | a, m'⟩
      · rfl
      · rw [read] at nothing
        cases nothing
    have rest := ih (s := { s with message := _ }) pending later
    simp only [Receiver.receiveChunks, settled_of_headerPending R h, step, Bool.false_eq_true, if_false]
    simpa [List.append_assoc] using rest

theorem header_extends {p p' c c' rest : List UInt8} {s s' : Reception α} {t : Nat}
    (h : s.message.HeaderPending p) (h' : s'.message.HeaderPending p') (answers : s.answer = s'.answer)
    (found : findTerminator (p ++ c) 0 = some t) (same : p ++ c ++ rest = p' ++ c') :
    (R.receiver.header s c).1 = (R.receiver.header s' c').1 ∧
      (R.receiver.header s c).2.answer = (R.receiver.header s' c').2.answer ∧
      Message.Extends rest (R.receiver.header s c).2.message (R.receiver.header s' c').2.message ∧
      (R.receiver.header s' c').2.message.state = (R.receiver.header s c).2.message.state := by
  obtain ⟨read, grown, state⟩ := Message.receiveHeader_extends R.cookieHeader R.read h h' found same
  rw [header_done, header_done, header_answer, header_answer, header_message, header_message, read,
    answers]
  exact ⟨rfl, rfl, grown, state⟩

theorem header_of_found {p c : List UInt8} {s : Reception α} {t : Nat} (h : s.message.HeaderPending p)
    (found : findTerminator (p ++ c) 0 = some t) :
    ((R.receiver.header s c).1 = false → (R.receiver.header s c).2.message.state = .errorSet) ∧
      ((R.receiver.header s c).1 = true → (R.receiver.header s c).2.message.BodyPending (p ++ c) ∧
        (R.receiver.header s c).2.message.cursor.index = t + 4) := by
  obtain ⟨failed, read⟩ := Message.receiveHeader_of_found R.cookieHeader R.read h found
  simp only [header_done, header_message]
  refine ⟨fun no => failed (by simpa using no), fun yes => read yes⟩

theorem receiveChunks_cons_of_found {p c : List UInt8} {s : Reception α} {t : Nat}
    (h : s.message.HeaderPending p) (found : findTerminator (p ++ c) 0 = some t)
    (post : List (List UInt8)) :
    R.receiver.receiveChunks s (c :: post) =
      if (R.receiver.header s c).1 then R.receiver.receiveChunks (R.receiver.header s c).2 ([] :: post)
      else (R.receiver.header s c).2 := by
  obtain ⟨failed, read⟩ := header_of_found R h found
  rw [Receiver.receiveChunks_cons _ (settled_of_headerPending R h),
    Receiver.receive_of_pending _ (Message.isPendingHeader_of_headerPending h)]
  cases done : (R.receiver.header s c).1
  · simp only [Bool.false_eq_true, if_false]
    exact Receiver.receiveChunks_of_settled _ (settled_of_errorSet R (failed done)) post
  · obtain ⟨body, -⟩ := read done
    simp only [if_true]
    rw [Receiver.receiveChunks_cons _ (settled_of_bodyPending R body),
      Receiver.receive_of_not_pending _ (Message.isPendingHeader_of_bodyPending body)]

theorem body_message (s : Reception α) (bytes : List UInt8) :
    (R.receiver.body s bytes).2 = ⟨(s.message.receiveBody bytes (R.bodyless s.answer)).2, s.answer⟩ :=
  rfl

theorem receiveChunks_cons_of_bodyPending {q : List UInt8} {s : Reception α}
    (h : s.message.BodyPending q) (c : List UInt8) (cs : List (List UInt8)) :
    R.receiver.receiveChunks s (c :: cs) = R.receiver.receiveChunks (R.receiver.body s c).2 cs := by
  rw [Receiver.receiveChunks_cons _ (settled_of_bodyPending R h),
    Receiver.receive_of_not_pending _ (Message.isPendingHeader_of_bodyPending h)]

theorem receiveChunks_full {q : List UInt8} {s : Reception α} (h : s.message.BodyPending q)
    (given : s.message.cursor.lengthGiven = true) {c : List UInt8}
    (full : s.message.cursor.index + s.message.cursor.length ≤ (q ++ c).length) (cs : List (List UInt8)) :
    (R.receiver.receiveChunks s (c :: cs)).message.state = .complete ∧
      (R.receiver.receiveChunks s (c :: cs)).answer = s.answer ∧
      Message.Extends c s.message (R.receiver.receiveChunks s (c :: cs)).message ∧
      (R.receiver.receiveChunks s (c :: cs)).message.cursor.size = s.message.cursor.length := by
  obtain ⟨-, complete, size, grown⟩ := Message.receiveBody_full c (R.bodyless s.answer) h given full
  rw [receiveChunks_cons_of_bodyPending R h,
    Receiver.receiveChunks_of_settled _ (settled_of_complete R complete)]
  exact ⟨complete, rfl, grown, size⟩

theorem receiveChunks_declared {q : List UInt8} {s : Reception α} (h : s.message.BodyPending q)
    (given : s.message.cursor.lengthGiven = true) (c : List UInt8) (cs : List (List UInt8)) :
    ((R.receiver.receiveChunks s (c :: cs)).message.state = .complete ↔
        s.message.cursor.index + s.message.cursor.length ≤ q.length + (c :: cs).flatten.length) ∧
      (R.receiver.receiveChunks s (c :: cs)).answer = s.answer ∧
      ∃ x, x <+: (c :: cs).flatten ∧ Message.Extends x s.message (R.receiver.receiveChunks s (c :: cs)).message ∧
        ((R.receiver.receiveChunks s (c :: cs)).message.state = .complete →
          (R.receiver.receiveChunks s (c :: cs)).message.cursor.size = s.message.cursor.length ∧
          s.message.cursor.index + s.message.cursor.length ≤ (q ++ x).length) := by
  induction cs generalizing q s c with
  | nil =>
    by_cases full : s.message.cursor.index + s.message.cursor.length ≤ (q ++ c).length
    · obtain ⟨complete, answer, grown, size⟩ := receiveChunks_full R h given full []
      simp only [List.length_append] at full
      refine ⟨by simpa [complete] using full, answer, c, by simp, grown, fun _ => ⟨size, by simpa using full⟩⟩
    · obtain ⟨-, pending, grown⟩ := Message.receiveBody_short c (R.bodyless s.answer) h given (by omega)
      rw [receiveChunks_cons_of_bodyPending R h]
      simp only [List.length_append] at full
      refine ⟨by simp [Receiver.receiveChunks, body_message, pending.state, full], rfl, c, by simp, grown, ?_⟩
      simp [Receiver.receiveChunks, body_message, pending.state]
  | cons c' cs ih =>
    by_cases full : s.message.cursor.index + s.message.cursor.length ≤ (q ++ c).length
    · obtain ⟨complete, answer, grown, size⟩ := receiveChunks_full R h given full (c' :: cs)
      simp only [List.length_append] at full
      refine ⟨by simp only [complete, List.flatten_cons, List.length_append, true_iff]; omega, answer, c,
        by simp, grown, fun _ => ⟨size, by simpa using full⟩⟩
    · obtain ⟨-, pending, grown⟩ := Message.receiveBody_short c (R.bodyless s.answer) h given (by omega)
      rw [receiveChunks_cons_of_bodyPending R h]
      obtain ⟨complete, answer, x, pre, grown', done⟩ :=
        ih (s := (R.receiver.body s c).2) pending (grown.lengthGiven.trans given) c'
      have index : (R.receiver.body s c).2.message.cursor.index = s.message.cursor.index := grown.index
      have length : (R.receiver.body s c).2.message.cursor.length = s.message.cursor.length := grown.length
      rw [index, length] at complete done
      refine ⟨?_, answer, c ++ x, List.prefix_append_right_inj c |>.2 pre, grown.trans grown', ?_⟩
      · rw [complete]
        simp only [List.flatten_cons, List.length_append]
        omega
      · intro finished
        obtain ⟨size, reach⟩ := done finished
        exact ⟨size, by simpa [List.append_assoc] using reach⟩

theorem receiveChunks_bodyless {q : List UInt8} {s : Reception α} (h : s.message.BodyPending q)
    (given : s.message.cursor.lengthGiven = false) (bodyless : R.bodyless s.answer = true)
    (c : List UInt8) (cs : List (List UInt8)) :
    (R.receiver.receiveChunks s (c :: cs)).message.state = .complete ∧
      (R.receiver.receiveChunks s (c :: cs)).answer = s.answer ∧
      (R.receiver.receiveChunks s (c :: cs)).message.cursor.size = 0 ∧
      (R.receiver.receiveChunks s (c :: cs)).message.cursor.length = 0 ∧
      (R.receiver.receiveChunks s (c :: cs)).message.raw = q ++ c ∧
      (R.receiver.receiveChunks s (c :: cs)).message.headers = s.message.headers ∧
      (R.receiver.receiveChunks s (c :: cs)).message.cookies = s.message.cookies ∧
      (R.receiver.receiveChunks s (c :: cs)).message.cursor.index = s.message.cursor.index := by
  have read := Message.receiveBody_bodyless c h given
  rw [← bodyless] at read
  obtain ⟨-, complete, rest⟩ := read
  rw [receiveChunks_cons_of_bodyPending R h,
    Receiver.receiveChunks_of_settled _ (settled_of_complete R complete)]
  exact ⟨complete, rfl, rest⟩

theorem receiveChunks_read {s : Reception α}
    (h : s.message.state = .pendingBody ∨ s.message.state = .complete) (cs : List (List UInt8)) :
    (R.receiver.receiveChunks s cs).message.state = .pendingBody ∨
      (R.receiver.receiveChunks s cs).message.state = .complete := by
  induction cs generalizing s with
  | nil => exact h
  | cons c cs ih =>
    rcases h with waiting | complete
    · have settled : R.receiver.settled s = false := by simp [receiver, waiting]
      have pending : R.receiver.pending s = false := by
        simp [receiver, Message.isPendingHeader, waiting]
      rw [Receiver.receiveChunks_cons _ settled, Receiver.receive_of_not_pending _ pending]
      apply ih
      simp only [body_message, Message.receiveBody, waiting]
      split <;> simp
    · rw [Receiver.receiveChunks_of_settled _ (settled_of_complete R complete)]
      exact Or.inr complete

theorem exists_terminator_read {p : List UInt8} {cs : List (List UInt8)} {t : Nat}
    (none : findTerminator p 0 = Option.none) (found : findTerminator (p ++ cs.flatten) 0 = some t) :
    ∃ pre c post, cs = pre ++ c :: post ∧ findTerminator (p ++ pre.flatten) 0 = Option.none ∧
      findTerminator (p ++ pre.flatten ++ c) 0 = some t := by
  induction cs generalizing p with
  | nil => simp_all
  | cons c cs ih =>
    cases here : findTerminator (p ++ c) 0 with
    | none =>
      obtain ⟨pre, c', post, split, before, arrives⟩ := ih here (by simpa [List.append_assoc] using found)
      exact ⟨c :: pre, c', post, by rw [split]; rfl, by simpa [List.append_assoc] using before,
        by simpa [List.append_assoc] using arrives⟩
    | some t' =>
      have whole := findTerminator_append_of_eq_some cs.flatten here
      rw [List.append_assoc, ← List.flatten_cons, found, Option.some.injEq] at whole
      exact ⟨[], c, cs, rfl, by simpa using none, by simpa [whole] using here⟩

theorem headerPending_empty : ({} : Reception α).message.HeaderPending [] :=
  Message.headerPending_empty

theorem receive_empty (m : List UInt8) :
    R.receiver.receive {} m = if (R.receiver.header {} m).1 then R.receiver.body (R.receiver.header {} m).2 []
      else (false, (R.receiver.header {} m).2) :=
  Receiver.receive_of_pending _ rfl m

theorem receiveChunks_of_found {cs : List (List UInt8)} {t : Nat}
    (found : findTerminator cs.flatten 0 = some t) :
    ∃ pre c post s, cs = pre ++ c :: post ∧ s.message.HeaderPending pre.flatten ∧ s.answer = none ∧
      findTerminator (pre.flatten ++ c) 0 = some t ∧
      R.receiver.receiveChunks {} cs = if (R.receiver.header s c).1 then
        R.receiver.receiveChunks (R.receiver.header s c).2 ([] :: post) else (R.receiver.header s c).2 := by
  obtain ⟨pre, c, post, split, before, arrives⟩ :=
    exists_terminator_read (p := []) rfl (by simpa using found)
  simp only [List.nil_append] at before arrives
  obtain ⟨waiting, answer⟩ := receiveChunks_headerPending R headerPending_empty pre before
  simp only [List.nil_append] at waiting
  refine ⟨pre, c, post, _, split, waiting, answer, arrives, ?_⟩
  rw [split, Receiver.receiveChunks_append, receiveChunks_cons_of_found R waiting arrives]

/-- The header block is acted on in the read that completes the first terminator: until then the
message waits for it, and from then on it no longer does. -/
theorem isPendingHeader_receiveChunks (cs : List (List UInt8)) :
    (R.receiver.receiveChunks {} cs).message.isPendingHeader = (findTerminator cs.flatten 0).isNone := by
  cases found : findTerminator cs.flatten 0 with
  | none =>
    have waiting := (receiveChunks_headerPending R headerPending_empty cs (by simpa using found)).1
    exact Message.isPendingHeader_of_headerPending waiting
  | some t =>
    obtain ⟨pre, c, post, s, -, waiting, -, arrives, run⟩ := receiveChunks_of_found R found
    obtain ⟨failed, read⟩ := header_of_found R waiting arrives
    rw [run]
    cases done : (R.receiver.header s c).1
    · simp [Message.isPendingHeader, failed done]
    · obtain ⟨body, -⟩ := read done
      have later := receiveChunks_read R (Or.inl body.state) ([] :: post)
      simp only [if_true, Message.isPendingHeader, Option.isNone_some]
      rcases later with state | state <;> simp [state]

/-- Reading in pieces fails exactly when the bytes read hold a terminator and reading them at once,
with anything after them, fails. -/
theorem errorSet_receiveChunks (cs : List (List UInt8)) (rest : List UInt8) :
    (R.receiver.receiveChunks {} cs).message.state = .errorSet ↔
      (findTerminator cs.flatten 0).isSome ∧
        (R.receiver.receive {} (cs.flatten ++ rest)).2.message.state = .errorSet := by
  cases found : findTerminator cs.flatten 0 with
  | none =>
    have waiting := (receiveChunks_headerPending R headerPending_empty cs (by simpa using found)).1
    simp only [Option.isSome_none, Bool.false_eq_true, false_and, iff_false, waiting.state]
    split <;> simp
  | some t =>
    obtain ⟨pre, c, post, s, split, waiting, answer, arrives, run⟩ := receiveChunks_of_found R found
    obtain ⟨failed, read⟩ := header_of_found R waiting arrives
    have same : pre.flatten ++ c ++ (post.flatten ++ rest) = [] ++ (cs.flatten ++ rest) := by
      simp [split]
    obtain ⟨done, -, -, state⟩ := header_extends R waiting headerPending_empty answer arrives same
    rw [run, receive_empty, ← done]
    cases ok : (R.receiver.header s c).1
    · simp only [Bool.false_eq_true, if_false, Option.isSome_some, true_and, state]
    · obtain ⟨body, -⟩ := read ok
      have later := receiveChunks_read R (Or.inl body.state) ([] :: post)
      have once : (R.receiver.body (R.receiver.header {} (cs.flatten ++ rest)).2 []).2.message.state ≠
          .errorSet := by
        simp only [body_message, Message.receiveBody, state, body.state]
        split <;> simp
      simp only [if_true, Option.isSome_some, true_and]
      refine ⟨fun failed => ?_, fun failed => absurd failed once⟩
      rcases later with waiting | complete
      · rw [waiting] at failed
        cases failed
      · rw [complete] at failed
        cases failed

def receiveAll (m : List UInt8) : Reception α := (R.receiver.receive {} m).2

theorem receiveAll_of_read {m : List UInt8} {t : Nat} (found : findTerminator m 0 = some t)
    (read : (R.receiveAll m).message.state ≠ .errorSet) :
    (R.receiver.header {} m).1 = true ∧ (R.receiver.header {} m).2.message.BodyPending m ∧
      (R.receiver.header {} m).2.message.cursor.index = t + 4 ∧
      R.receiveAll m = (R.receiver.body (R.receiver.header {} m).2 []).2 := by
  obtain ⟨failed, done⟩ := header_of_found R (p := []) headerPending_empty (by simpa using found)
  cases ok : (R.receiver.header {} m).1
  · exfalso
    apply read
    simp [receiveAll, receive_empty, ok, failed ok]
  · obtain ⟨body, index⟩ := done ok
    exact ⟨rfl, by simpa using body, index, by simp [receiveAll, receive_empty, ok]⟩

theorem receiveChunks_of_read {cs : List (List UInt8)} (rest : List UInt8) {t : Nat}
    (found : findTerminator cs.flatten 0 = some t)
    (read : (R.receiveAll (cs.flatten ++ rest)).message.state ≠ .errorSet) :
    ∃ s q post, s.message.BodyPending q ∧ s.message.cursor.index = t + 4 ∧ q ++ post.flatten = cs.flatten ∧
      s.answer = (R.receiver.header {} (cs.flatten ++ rest)).2.answer ∧
      Message.Extends (post.flatten ++ rest) s.message (R.receiver.header {} (cs.flatten ++ rest)).2.message ∧
      R.receiver.receiveChunks {} cs = R.receiver.receiveChunks s ([] :: post) := by
  obtain ⟨pre, c, post, s, split, waiting, answer, arrives, run⟩ := receiveChunks_of_found R found
  have same : pre.flatten ++ c ++ (post.flatten ++ rest) = [] ++ (cs.flatten ++ rest) := by
    simp [split]
  obtain ⟨done, answers, grown, -⟩ := header_extends R waiting headerPending_empty answer arrives same
  have ok := (receiveAll_of_read R (findTerminator_append_of_eq_some rest found) read).1
  rw [← done] at ok
  obtain ⟨body, index⟩ := (header_of_found R waiting arrives).2 ok
  refine ⟨_, _, post, body, index, by simp [split], answers, grown, ?_⟩
  rw [run, if_pos ok]

theorem framed_of_read {m rest : List UInt8} {s : Reception α}
    (once : R.receiveAll m = (R.receiver.body (R.receiver.header {} m).2 []).2)
    (answers : s.answer = (R.receiver.header {} m).2.answer)
    (grown : Message.Extends rest s.message (R.receiver.header {} m).2.message)
    (framed : (R.receiveAll m).message.cursor.lengthGiven = true ∨ R.bodyless (R.receiveAll m).answer = true) :
    s.message.cursor.lengthGiven = true ∨ s.message.cursor.lengthGiven = false ∧ R.bodyless s.answer = true := by
  rw [once, body_message] at framed
  simp only [Message.lengthGiven_receiveBody, grown.lengthGiven, ← answers] at framed
  cases given : s.message.cursor.lengthGiven
  · exact .inr ⟨rfl, by simpa [given] using framed⟩
  · exact .inl rfl

section Completion

/- Two messages waiting for their body: `s`, received in pieces, has received `q`; `s'`, received
at once, has received all of `q`, the later pieces `post` and the bytes `rest` after them. -/
variable {s s' : Reception α} {q rest : List UInt8} {post : List (List UInt8)}
  (h : s.message.BodyPending q) (h' : s'.message.BodyPending (q ++ (post.flatten ++ rest)))
  (grown : Message.Extends (post.flatten ++ rest) s.message s'.message) (answers : s.answer = s'.answer)
include h h' grown answers

theorem complete_receiveChunks_declared (given : s.message.cursor.lengthGiven = true) :
    ((R.receiver.receiveChunks s ([] :: post)).message.state = .complete ↔
        s.message.cursor.index + (R.receiver.body s' []).2.message.bodyLength ≤
          q.length + post.flatten.length) ∧
      ((R.receiver.receiveChunks s ([] :: post)).message.state = .complete →
        (R.receiver.receiveChunks s ([] :: post)).Same (R.receiver.body s' []).2) := by
  obtain ⟨complete, answer, x, pre, grown', done⟩ := receiveChunks_declared R h given [] post
  simp only [List.flatten_cons, List.nil_append] at complete pre grown' done
  have given' : s'.message.cursor.lengthGiven = true := grown.lengthGiven.trans given
  -- the message read at once receives no more, so its body read only settles what it holds
  have once : Message.Extends [] s'.message (R.receiver.body s' []).2.message ∧
      (s'.message.cursor.index + s'.message.cursor.length ≤ (q ++ (post.flatten ++ rest)).length →
        (R.receiver.body s' []).2.message.cursor.size = s'.message.cursor.length) := by
    rw [body_message]
    by_cases full : s'.message.cursor.index + s'.message.cursor.length ≤
        (q ++ (post.flatten ++ rest) ++ []).length
    · obtain ⟨-, -, size, grown''⟩ := Message.receiveBody_full [] (R.bodyless s'.answer) h' given' full
      exact ⟨grown'', fun _ => size⟩
    · obtain ⟨-, -, grown''⟩ :=
        Message.receiveBody_short [] (R.bodyless s'.answer) h' given' (by omega)
      exact ⟨grown'', fun fits => absurd (by simpa using fits) full⟩
  have length : (R.receiver.body s' []).2.message.bodyLength = s.message.cursor.length := by
    rw [Message.bodyLength, once.1.length, grown.length]
  refine ⟨by rw [complete, length], fun finished => ?_⟩
  obtain ⟨size, reach⟩ := done finished
  have within : q ++ x <+: q ++ (post.flatten ++ rest) :=
    (List.prefix_append_right_inj q).2 (pre.trans (List.prefix_append _ _))
  have size' := once.2 (by rw [grown.index, grown.length]; exact Nat.le_trans reach within.length_le)
  refine ⟨answer.trans answers, ?_, ?_, ?_, ?_⟩
  · rw [grown'.headers, once.1.headers, grown.headers]
  · rw [grown'.cookies, once.1.cookies, grown.cookies]
  · apply BodyCursor.body_eq_of_prefix
    · rw [grown'.index, once.1.index, grown.index]
    · rw [size, size', grown.length]
    · rw [grown'.raw, once.1.raw, h.raw, h'.raw, List.append_nil]
      exact within
    · rw [grown'.raw, h.raw, grown'.index, size]
      exact reach
  · rw [Message.bodyLength, Message.bodyLength, grown'.length, once.1.length, grown.length]

theorem complete_receiveChunks_bodyless (given : s.message.cursor.lengthGiven = false)
    (bodyless : R.bodyless s.answer = true) :
    (R.receiver.receiveChunks s ([] :: post)).message.state = .complete ∧
      (R.receiver.body s' []).2.message.bodyLength = 0 ∧
      (R.receiver.receiveChunks s ([] :: post)).Same (R.receiver.body s' []).2 := by
  obtain ⟨complete, answer, size, length, raw, headers, cookies, index⟩ :=
    receiveChunks_bodyless R h given bodyless [] post
  have read := Message.receiveBody_bodyless [] h' (grown.lengthGiven.trans given)
  rw [answers] at bodyless
  rw [← bodyless] at read
  obtain ⟨-, -, size', length', raw', headers', cookies', index'⟩ := read
  simp only [body_message]
  refine ⟨complete, length', answer.trans answers, ?_, ?_, ?_, ?_⟩
  · rw [headers, headers', grown.headers]
  · rw [cookies, cookies', grown.cookies]
  · apply BodyCursor.body_eq_of_prefix
    · rw [index, index', grown.index]
    · rw [size, size']
    · rw [raw, raw', List.append_nil, List.append_nil]
      exact List.prefix_append _ _
    · have fits := h.size
      rw [raw, index, size, List.append_nil]
      omega
  · rw [Message.bodyLength, Message.bodyLength, length, length']

end Completion

/-- Bytes whose header block is read at once and whose body is framed, by a declared length or by
having none: reading them in pieces completes the message exactly when the pieces reach the end
of the body, and it is then the message read at once. -/
theorem complete_receiveChunks (cs : List (List UInt8)) (rest : List UInt8) {t : Nat}
    (found : findTerminator (cs.flatten ++ rest) 0 = some t)
    (read : (R.receiveAll (cs.flatten ++ rest)).message.state ≠ .errorSet)
    (framed : (R.receiveAll (cs.flatten ++ rest)).message.cursor.lengthGiven = true ∨
      R.bodyless (R.receiveAll (cs.flatten ++ rest)).answer = true) :
    ((R.receiver.receiveChunks {} cs).message.state = .complete ↔
        t + 4 + (R.receiveAll (cs.flatten ++ rest)).message.bodyLength ≤ cs.flatten.length) ∧
      ((R.receiver.receiveChunks {} cs).message.state = .complete →
        (R.receiver.receiveChunks {} cs).Same (R.receiveAll (cs.flatten ++ rest))) := by
  cases early : findTerminator cs.flatten 0 with
  | none =>
    -- the terminator ends past the pieces, which leave the message waiting for its header block
    have waiting := (receiveChunks_headerPending R headerPending_empty cs (by simpa using early)).1
    have short := length_lt_of_findTerminator_append rest early found
    have incomplete : (R.receiver.receiveChunks {} cs).message.state ≠ .complete := by
      rw [waiting.state]
      split <;> simp
    exact ⟨iff_of_false incomplete (by omega), fun complete => absurd complete incomplete⟩
  | some t' =>
    obtain rfl : t' = t := Option.some.inj ((findTerminator_append_of_eq_some rest early).symm.trans found)
    obtain ⟨-, h', -, once⟩ := receiveAll_of_read R found read
    obtain ⟨s, q, post, h, index, split, answers, grown, run⟩ := receiveChunks_of_read R rest early read
    have h'' : (R.receiver.header {} (cs.flatten ++ rest)).2.message.BodyPending (q ++ (post.flatten ++ rest)) := by
      rw [← List.append_assoc, split]
      exact h'
    have length : cs.flatten.length = q.length + post.flatten.length := by
      rw [← split, List.length_append]
    rw [once, run]
    rcases framed_of_read R once answers grown framed with given | ⟨given, bodyless⟩
    · obtain ⟨complete, same⟩ := complete_receiveChunks_declared R h h'' grown answers given
      exact ⟨by rw [complete, index, length], same⟩
    · obtain ⟨complete, empty, same⟩ := complete_receiveChunks_bodyless R h h'' grown answers given bodyless
      have fits := h.size
      exact ⟨iff_of_true complete (by omega), fun _ => same⟩

theorem findTerminator_isNone_iff (fed rest : List UInt8) :
    (findTerminator fed 0).isNone = true ↔
      ∀ t, findTerminator (fed ++ rest) 0 = some t → fed.length < t + 4 := by
  cases early : findTerminator fed 0 with
  | none => exact ⟨fun _ t found => length_lt_of_findTerminator_append rest early found, fun _ => rfl⟩
  | some t =>
    have fits := length_of_startsWithTerminator (findTerminator_eq_some.1 early).2.1
    simp only [List.length_drop] at fits
    simp only [Option.isNone_some, Bool.false_eq_true, false_iff]
    intro all
    have := all t (findTerminator_append_of_eq_some rest early)
    omega

theorem receiveChunks_take (cs : List (List UInt8)) (k : Nat) :
    ((R.receiver.receiveChunks {} (cs.take k)).message.isPendingHeader = true ↔
        ∀ t, findTerminator cs.flatten 0 = some t → (cs.take k).flatten.length < t + 4) ∧
      ((R.receiver.receiveChunks {} (cs.take k)).message.state = .errorSet ↔
        (R.receiveAll cs.flatten).message.state = .errorSet ∧
          (R.receiver.receiveChunks {} (cs.take k)).message.isPendingHeader = false) ∧
      ∀ t, findTerminator cs.flatten 0 = some t → (R.receiveAll cs.flatten).message.state ≠ .errorSet →
        ((R.receiveAll cs.flatten).message.cursor.lengthGiven = true ∨
          R.bodyless (R.receiveAll cs.flatten).answer = true) →
        ((R.receiver.receiveChunks {} (cs.take k)).message.state = .complete ↔
            t + 4 + (R.receiveAll cs.flatten).message.bodyLength ≤ (cs.take k).flatten.length) ∧
          ((R.receiver.receiveChunks {} (cs.take k)).message.state = .complete →
            (R.receiver.receiveChunks {} (cs.take k)).Same (R.receiveAll cs.flatten)) := by
  have whole : cs.flatten = (cs.take k).flatten ++ (cs.drop k).flatten := by
    rw [← List.flatten_append, List.take_append_drop]
  have pending := isPendingHeader_receiveChunks R (cs.take k)
  refine ⟨?_, ?_, ?_⟩
  · rw [pending, whole]
    exact findTerminator_isNone_iff _ _
  · rw [errorSet_receiveChunks R (cs.take k) (cs.drop k).flatten, pending, ← whole, receiveAll]
    cases findTerminator (cs.take k).flatten 0 <;> simp
  · intro t found read framed
    rw [whole] at found read framed ⊢
    exact complete_receiveChunks R (cs.take k) (cs.drop k).flatten found read framed

end Reader

end Switchboard.Http
