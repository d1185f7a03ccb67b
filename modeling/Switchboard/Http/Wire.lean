import Switchboard.Word
/-!
# Framing on the wire

A header block ends at the first CR LF CR LF. The body that follows is tracked by offsets into the
received bytes: it starts after the terminator, and its length is declared, implied by the
message having no body, or found when the bytes end with another CR LF CR LF.
-/
namespace Switchboard.Http

def startsWithTerminator : List UInt8 → Bool
  | 13 :: 10 :: 13 :: 10 :: _ => true
  | _ => false

def findTerminator (buf : List UInt8) (start : Nat) : Option Nat :=
  go start (buf.drop start)
where
  go (i : Nat) : List UInt8 → Option Nat
    | [] => none
    | l@(_ :: rest) => if startsWithTerminator l then some i else go (i + 1) rest

def rescanOffset (len : Nat) : Nat := len - 3

theorem length_of_startsWithTerminator {l : List UInt8} (h : startsWithTerminator l = true) :
    4 ≤ l.length := by
  match l, h with
  | _ :: _ :: _ :: _ :: _, _ => simp
  | [], h | [_], h | [_, _], h | [_, _, _], h => simp [startsWithTerminator] at h

theorem startsWithTerminator_append (a c : List UInt8) (h : 4 ≤ a.length) :
    startsWithTerminator (a ++ c) = startsWithTerminator a := by
  match a, h with
  | x1 :: x2 :: x3 :: x4 :: r, _ =>
    simp only [List.cons_append]
    unfold startsWithTerminator
    split <;> split <;> simp_all

theorem findTerminator_go_eq_none (i : Nat) (l : List UInt8) :
    findTerminator.go i l = none ↔ ∀ k, startsWithTerminator (l.drop k) = false := by
  induction l generalizing i with
  | nil => simp [findTerminator.go, startsWithTerminator]
  | cons x rest ih =>
    by_cases here : startsWithTerminator (x :: rest) = true
    · simp only [findTerminator.go, here, if_true, reduceCtorEq, false_iff]
      intro all
      simpa [here] using all 0
    · simp only [findTerminator.go, here, if_false, Bool.false_eq_true, ih]
      constructor
      · intro later k
        cases k with
        | zero => simpa using here
        | succ k => simpa using later k
      · intro all k
        simpa using all (k + 1)

theorem findTerminator_go_eq_some (i : Nat) (l : List UInt8) (t : Nat) :
    findTerminator.go i l = some t ↔ i ≤ t ∧ startsWithTerminator (l.drop (t - i)) = true ∧
      ∀ k < t - i, startsWithTerminator (l.drop k) = false := by
  induction l generalizing i with
  | nil => simp [findTerminator.go, startsWithTerminator]
  | cons x rest ih =>
    by_cases here : startsWithTerminator (x :: rest) = true
    · simp only [findTerminator.go, here, if_true, Option.some.injEq]
      constructor
      · rintro rfl
        simpa using here
      · rintro ⟨le, _, before⟩
        cases Nat.lt_or_ge i t with
        | inl lt => simpa [here] using before 0 (by omega)
        | inr ge => omega
    · simp only [findTerminator.go, here, if_false, Bool.false_eq_true, ih]
      constructor
      · rintro ⟨le, found, before⟩
        refine ⟨by omega, ?_, ?_⟩
        · have shift : t - i = (t - (i + 1)) + 1 := by omega
          rw [shift]
          simpa using found
        · intro k lt
          cases k with
          | zero => simpa using here
          | succ k => simpa using before k (by omega)
      · rintro ⟨le, found, before⟩
        have ne : t ≠ i := by
          rintro rfl
          simp_all
        refine ⟨by omega, ?_, ?_⟩
        · have shift : t - i = (t - (i + 1)) + 1 := by omega
          rw [shift] at found
          simpa using found
        · intro k lt
          simpa using before (k + 1) (by omega)



theorem startsWithTerminator_drop_append {q : List UInt8} (r : List UInt8) {i : Nat}
    (h : i + 4 ≤ q.length) :
    startsWithTerminator ((q ++ r).drop i) = startsWithTerminator (q.drop i) := by
  rw [List.drop_append_of_le_length (by omega)]
  exact startsWithTerminator_append _ _ (by simp; omega)

theorem findTerminator_eq_none {buf : List UInt8} {start : Nat} :
    findTerminator buf start = none ↔ ∀ i, start ≤ i → startsWithTerminator (buf.drop i) = false := by
  simp only [findTerminator, findTerminator_go_eq_none, List.drop_drop]
  constructor
  · intro all i le
    have shift : i = start + (i - start) := by omega
    rw [shift]
    exact all (i - start)
  · intro all k
    exact all (start + k) (by omega)

theorem findTerminator_eq_some {buf : List UInt8} {start t : Nat} :
    findTerminator buf start = some t ↔ start ≤ t ∧ startsWithTerminator (buf.drop t) = true ∧
      ∀ i, start ≤ i → i < t → startsWithTerminator (buf.drop i) = false := by
  simp only [findTerminator, findTerminator_go_eq_some, List.drop_drop]
  constructor
  · rintro ⟨le, found, before⟩
    refine ⟨le, by rwa [Nat.add_sub_cancel' le] at found, ?_⟩
    intro i lo hi
    have shift : i = start + (i - start) := by omega
    rw [shift]
    exact before (i - start) (by omega)
  · rintro ⟨le, found, before⟩
    refine ⟨le, by rwa [Nat.add_sub_cancel' le], ?_⟩
    intro k lt
    exact before (start + k) (by omega) (by omega)

theorem findTerminator_append_of_eq_some {q : List UInt8} (r : List UInt8) {start t : Nat}
    (h : findTerminator q start = some t) : findTerminator (q ++ r) start = some t := by
  obtain ⟨le, found, before⟩ := findTerminator_eq_some.1 h
  have fits := length_of_startsWithTerminator found
  simp only [List.length_drop] at fits
  refine findTerminator_eq_some.2 ⟨le, ?_, ?_⟩
  · rwa [startsWithTerminator_drop_append r (by omega)]
  · intro i lo hi
    rw [startsWithTerminator_drop_append r (by omega)]
    exact before i lo hi

theorem findTerminator_eq_none_of_append {q : List UInt8} (r : List UInt8) {start : Nat}
    (h : findTerminator (q ++ r) start = none) : findTerminator q start = none := by
  cases found : findTerminator q start with
  | none => rfl
  | some t =>
    rw [findTerminator_append_of_eq_some r found] at h
    cases h

theorem length_lt_of_findTerminator_append {q : List UInt8} (r : List UInt8) {start t : Nat}
    (none : findTerminator q start = none) (h : findTerminator (q ++ r) start = some t) :
    q.length < t + 4 := by
  obtain ⟨le, found, _⟩ := findTerminator_eq_some.1 h
  apply Nat.lt_of_not_le
  intro fits
  have absent := findTerminator_eq_none.1 none t le
  rw [startsWithTerminator_drop_append r fits] at found
  simp_all

theorem findTerminator_rescanOffset {p : List UInt8} (c : List UInt8)
    (none : findTerminator p 0 = none) :
    findTerminator (p ++ c) (rescanOffset p.length) = findTerminator (p ++ c) 0 := by
  have early : ∀ i, i < rescanOffset p.length → startsWithTerminator ((p ++ c).drop i) = false := by
    intro i lt
    unfold rescanOffset at lt
    rw [startsWithTerminator_drop_append c (by omega)]
    exact findTerminator_eq_none.1 none i (Nat.zero_le i)
  cases h : findTerminator (p ++ c) 0 with
  | none =>
    exact findTerminator_eq_none.2 fun i _ => findTerminator_eq_none.1 h i (Nat.zero_le i)
  | some t =>
    obtain ⟨_, found, before⟩ := findTerminator_eq_some.1 h
    have late : rescanOffset p.length ≤ t := by
      apply Nat.le_of_not_lt
      intro lt
      simp_all
    exact findTerminator_eq_some.2 ⟨late, found, fun i _ hi => before i (Nat.zero_le i) hi⟩

def terminatorEndsAt (cache : List UInt8) (stop : Nat) : Bool :=
  decide (4 ≤ stop) && decide (stop ≤ cache.length) && startsWithTerminator (cache.drop (stop - 4))

/-- Whether a body of `size` bytes from `index` has at least four bytes, fits in the cache and ends
with CR LF CR LF; `none` when the end offset leaves the word range. -/
def bodyEndsWithTerminator (cache : List UInt8) (index size : Nat) : Option Bool :=
  if size < 4 then some false
  else (addWord? index size).map (terminatorEndsAt cache)

/-- Offsets of a message body within the received bytes, and where the next terminator search
starts. -/
structure BodyCursor where
  index : Nat := 0
  size : Nat := 0
  length : Nat := 0
  lengthGiven : Bool := false
  scanFrom : Nat := 0
  deriving Repr, DecidableEq

namespace BodyCursor

def declared (index length : Nat) : BodyCursor := { index, length, lengthGiven := true }

def stop (c : BodyCursor) (cacheLen : Nat) : Nat := min (c.index + c.size) cacheLen

def body (c : BodyCursor) (cache : List UInt8) : List UInt8 :=
  (cache.take (c.stop cache.length)).drop c.index

def surplus (c : BodyCursor) (cache : List UInt8) : List UInt8 := cache.drop (c.stop cache.length)

def resetLength (c : BodyCursor) : BodyCursor := { c with length := 0, lengthGiven := false }

def setContentLength (c : BodyCursor) : Option Nat → BodyCursor
  | some l => { c with length := l, lengthGiven := true }
  | none => c

/-- Counts `n` more body bytes, the received bytes now being `cache`, and tells whether the body
is complete: at its declared length (clipping what lies past it), at once when the message has no
body, or else when the bytes end with CR LF CR LF. -/
def feed (c : BodyCursor) (cache : List UInt8) (n : Nat) (bodyless : Bool) : Bool × BodyCursor :=
  let c := { c with size := c.size + n }
  if c.lengthGiven then
    if c.length ≤ c.size then (true, { c with size := c.length }) else (false, c)
  else if bodyless then (true, { c with length := 0, size := 0 })
  else if 4 ≤ c.size && terminatorEndsAt cache (c.index + c.size) then (true, { c with length := c.size })
  else (false, c)

theorem index_feed (c : BodyCursor) (cache : List UInt8) (n : Nat) (bodyless : Bool) :
    (c.feed cache n bodyless).2.index = c.index := by
  unfold feed
  dsimp only
  split
  · split <;> rfl
  · split
    · rfl
    · split <;> rfl

theorem lengthGiven_feed (c : BodyCursor) (cache : List UInt8) (n : Nat) (bodyless : Bool) :
    (c.feed cache n bodyless).2.lengthGiven = c.lengthGiven := by
  unfold feed
  dsimp only
  split
  · split <;> rfl
  · split
    · rfl
    · split <;> rfl

theorem feed_of_lengthGiven (c : BodyCursor) (cache : List UInt8) (n : Nat) (bodyless : Bool)
    (given : c.lengthGiven = true) :
    c.feed cache n bodyless = if c.length ≤ c.size + n then (true, { c with size := c.length })
      else (false, { c with size := c.size + n }) := by
  simp [feed, given]

theorem feed_bodyless (c : BodyCursor) (cache : List UInt8) (n : Nat) (given : c.lengthGiven = false) :
    c.feed cache n true = (true, { c with length := 0, size := 0 }) := by
  simp [feed, given]

end BodyCursor

end Switchboard.Http
