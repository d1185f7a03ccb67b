import Mathlib
import Switchboard.Web.Router
/-!
# Resolving a request against the routes

`Resolves` says from the registrations alone what a request resolves to: the last registration of
the most specific matching pattern, else the methods allowed, else not found. Registering
(`Router.Reflects`) and scanning (`Router.Scanned`) meet it, so only the order of each route's own
registrations matters (`Resolves.agrees`).
-/
namespace Switchboard.Web

open Switchboard.Http

/-! ## Patterns that match a path -/

namespace Pattern

/-- Whether a pattern matches a path: an exact pattern the same path, a prefix pattern its base
and every path below it. -/
def Matches : Pattern → String → Prop
  | .exact e, path => e = path
  | .below b, path => path = b ∨ ∃ rest, path.toList = b.toList ++ '/' :: rest

/-- Whether `p` is at least as specific as `q`: an exact pattern is at least as specific as any,
and a prefix pattern only as a prefix pattern with a base no longer than its own. -/
def AtLeast : Pattern → Pattern → Prop
  | .exact _, _ => True
  | .below _, .exact _ => False
  | .below b, .below c => c.length ≤ b.length

/-- The rank of a pattern that matches: an exact one the largest word, a prefix one the length of
its base in bytes. -/
def weight : Pattern → Nat
  | .exact _ => wordMax
  | .below b => b.utf8ByteSize

theorem rank?_eq_some_iff {p : Pattern} {path : String} {k : Nat} :
    p.rank? path = some k ↔ p.Matches path ∧ k = p.weight := by
  cases p with
  | exact e =>
    simp only [rank?, Matches, weight, beq_iff_eq]
    split <;> simp_all [eq_comm]
  | below b =>
    simp only [rank?, Matches, weight]
    split
    · next isPrefix =>
      obtain ⟨t, whole⟩ := List.isPrefixOf_iff_prefix.1 isPrefix
      have rest : path.toList.drop b.length = t := by
        rw [← whole, ← String.length_toList, List.drop_left]
      rw [rest]
      rcases t with _ | ⟨c, t⟩
      · simp [← String.toList_inj, ← whole, eq_comm]
      · by_cases slash : c = '/'
        · subst slash
          simp [← whole, eq_comm]
        · have other : path ≠ b := by
            intro same
            simp [same] at whole
          simp [other, slash, ← whole]
    · next notPrefix =>
      -- a matching path starts with the base
      have unmatched : ¬(path = b ∨ ∃ rest, path.toList = b.toList ++ '/' :: rest) := by
        rintro (rfl | ⟨rest, whole⟩)
        · exact notPrefix (List.isPrefixOf_iff_prefix.2 (List.prefix_refl _))
        · exact notPrefix (List.isPrefixOf_iff_prefix.2 ⟨_, whole.symm⟩)
      simp [unmatched]

theorem rank?_eq_none_iff {p : Pattern} {path : String} : p.rank? path = none ↔ ¬p.Matches path := by
  cases ranked : p.rank? path with
  | none => simpa using fun m => (rank?_eq_some_iff.2 ⟨m, rfl⟩).symm.trans ranked
  | some k => simpa using (rank?_eq_some_iff.1 ranked).1

theorem utf8ByteSize_add_of_prefix {s t : String} (h : s.toList <+: t.toList) :
    s.utf8ByteSize + (String.ofList (t.toList.drop s.length)).utf8ByteSize = t.utf8ByteSize := by
  obtain ⟨rest, whole⟩ := h
  have split : t = s ++ String.ofList rest := by
    rw [← String.toList_inj, String.toList_append, String.toList_ofList, whole]
  rw [split, String.utf8ByteSize_append, ← String.length_toList, String.toList_append,
    String.toList_ofList, List.drop_left]

theorem utf8ByteSize_le_of_prefix {s t : String} (h : s.toList <+: t.toList) :
    s.utf8ByteSize ≤ t.utf8ByteSize := by
  have := utf8ByteSize_add_of_prefix h
  omega

theorem utf8ByteSize_lt_of_prefix {s t : String} (h : s.toList <+: t.toList) (shorter : s.length < t.length) :
    s.utf8ByteSize < t.utf8ByteSize := by
  have more : String.ofList (t.toList.drop s.length) ≠ "" := by
    rw [Ne, ← String.toList_inj, String.toList_ofList, String.toList_empty, List.drop_eq_nil_iff,
      String.length_toList]
    omega
  have := utf8ByteSize_add_of_prefix h
  have := (String.utf8ByteSize_eq_zero_iff.not).2 more
  omega

theorem Matches.prefix {b path : String} (h : (below b).Matches path) : b.toList <+: path.toList := by
  rcases h with rfl | ⟨rest, whole⟩
  · exact List.prefix_refl _
  · exact ⟨_, whole.symm⟩

theorem utf8ByteSize_le_iff {b c path : String} (hb : (below b).Matches path) (hc : (below c).Matches path) :
    c.utf8ByteSize ≤ b.utf8ByteSize ↔ c.length ≤ b.length := by
  constructor
  · intro fewer
    by_contra longer
    have := utf8ByteSize_lt_of_prefix
      (List.prefix_of_prefix_length_le hb.prefix hc.prefix (by simp only [String.length_toList]; omega))
      (by omega)
    omega
  · intro shorter
    exact utf8ByteSize_le_of_prefix
      (List.prefix_of_prefix_length_le hc.prefix hb.prefix (by simpa only [String.length_toList] using shorter))

/-- For a path that fits in memory, the ranks of two patterns that match it order them as their
specificity does. -/
theorem weight_le_iff {p q : Pattern} {path : String} (fits : path.utf8ByteSize < wordMax)
    (hp : p.Matches path) (hq : q.Matches path) : q.weight ≤ p.weight ↔ p.AtLeast q := by
  cases p with
  | exact e =>
    cases q with
    | exact e' => simp [weight, AtLeast]
    | below c =>
      have := utf8ByteSize_le_of_prefix hq.prefix
      simp only [weight, AtLeast, iff_true]
      omega
  | below b =>
    cases q with
    | exact e' =>
      have := utf8ByteSize_le_of_prefix hp.prefix
      simp only [weight, AtLeast, iff_false, Nat.not_le]
      omega
    | below c => exact utf8ByteSize_le_iff hp hq

/-- Two patterns that match one path and are each at least as specific as the other are the
same. -/
theorem eq_of_atLeast {p q : Pattern} {path : String} (hp : p.Matches path) (hq : q.Matches path)
    (pq : p.AtLeast q) (qp : q.AtLeast p) : p = q := by
  cases p with
  | exact e =>
    cases q with
    | exact e' => exact congrArg exact (hp.trans hq.symm)
    | below c => exact qp.elim
  | below b =>
    cases q with
    | exact e' => exact pq.elim
    | below c =>
      have same : b.length = c.length := Nat.le_antisymm qp pq
      have bc := List.prefix_of_prefix_length_le hp.prefix hq.prefix (by simp only [String.length_toList, same]; rfl)
      have : b.toList = c.toList := bc.eq_of_length (by simp only [String.length_toList, same])
      rw [String.toList_inj.1 this]

end Pattern

/-! ## Registering -/

/-- A registration as `Router.route` takes it: a method, the text of a pattern and a handler. -/
structure Registration (κ : Type) where
  method : Method
  pattern : String
  handler : κ

variable {κ : Type}

def Registration.key (g : Registration κ) : Method × Pattern := (g.method, Pattern.ofText g.pattern)

def lastOf (regs : List (Registration κ)) (k : Method × Pattern) : Option (Registration κ) :=
  (regs.filter (·.key = k)).getLast?

theorem lastOf_append_singleton (regs : List (Registration κ)) (g : Registration κ) (k : Method × Pattern) :
    lastOf (regs ++ [g]) k = if g.key = k then some g else lastOf regs k := by
  by_cases same : g.key = k <;> simp [lastOf, List.filter_append, same]

theorem lastOf_spec {regs : List (Registration κ)} {k : Method × Pattern} {g : Registration κ}
    (h : lastOf regs k = some g) : g ∈ regs ∧ g.key = k := by
  simpa using List.mem_of_getLast? h

theorem lastOf_isSome {regs : List (Registration κ)} {g : Registration κ} (mem : g ∈ regs) :
    ∃ g', lastOf regs g.key = some g' := by
  have : (regs.filter (·.key = g.key)) ≠ [] := List.ne_nil_of_mem (a := g) (by simp [mem])
  exact Option.isSome_iff_exists.1 (List.getLast?_isSome.2 this)

namespace Router

def ofRegistrations (regs : List (Registration κ)) : Router κ :=
  regs.foldl (fun r g => r.route g.method g.pattern g.handler) {}

/-- The routes of a router are those of the registrations, one for each method and pattern, with
the handler of its last registration. -/
def Reflects (regs : List (Registration κ)) (r : Router κ) : Prop :=
  ∀ x, x ∈ r.routes ↔ ∃ g, lastOf regs (x.method, x.pattern) = some g ∧ x.handler = g.handler

theorem mem_route (r : Router κ) (m : Method) (text : String) (h : κ) (x : Route κ) :
    x ∈ (r.route m text h).routes ↔
      x ∈ r.routes ∧ (x.method, x.pattern) ≠ (m, Pattern.ofText text) ∨ x = ⟨m, Pattern.ofText text, h⟩ := by
  simp only [route, List.mem_append, List.mem_filter, List.mem_singleton, ne_eq, Prod.ext_iff]
  simp only [Bool.not_and, Bool.or_eq_true, Bool.not_eq_true', beq_eq_false_iff_ne, ne_eq]
  tauto

theorem Reflects.route {regs : List (Registration κ)} {r : Router κ} (h : Reflects regs r)
    (g : Registration κ) : Reflects (regs ++ [g]) (r.route g.method g.pattern g.handler) := by
  intro x
  rw [mem_route, h x, lastOf_append_singleton]
  by_cases same : g.key = (x.method, x.pattern)
  · -- the route of the new registration's method and pattern is the new one
    obtain ⟨m, p, k⟩ := x
    simp only [Registration.key, Prod.mk.injEq] at same
    obtain ⟨rfl, rfl⟩ := same
    simp [Registration.key]
  · have other : (x.method, x.pattern) ≠ (g.method, Pattern.ofText g.pattern) := fun e => same e.symm
    have notNew : x ≠ ⟨g.method, Pattern.ofText g.pattern, g.handler⟩ := by
      rintro rfl
      exact other rfl
    simp [same, other, notNew]

theorem reflects_ofRegistrations (regs : List (Registration κ)) : Reflects regs (ofRegistrations regs) := by
  suffices all : ∀ (done : List (Registration κ)) (r : Router κ), Reflects done r →
      Reflects (done ++ regs) (regs.foldl (fun r g => r.route g.method g.pattern g.handler) r) by
    simpa [ofRegistrations] using all [] {} (fun x => by simp [lastOf])
  induction regs with
  | nil => simp
  | cons g rest ih =>
    intro done r h
    simpa using ih (done ++ [g]) _ (h.route g)

/-! ## Resolving -/

/-- One route's turn in the scan of a resolution on `path` for method `m`: a matching route of the
method replaces the best so far when it ranks higher, and a matching route of another method adds
its method once. -/
def scanStep (path : String) (m : Option Method) (acc : Option (Nat × κ) × List Method) (x : Route κ) :
    Option (Nat × κ) × List Method :=
  match x.pattern.rank? path with
  | none => acc
  | some k =>
    if some x.method != m then
      (acc.1, if acc.2.contains x.method then acc.2 else acc.2 ++ [x.method])
    else match acc.1 with
      | some (cur, _) => if cur < k then (some (k, x.handler), acc.2) else acc
      | none => (some (k, x.handler), acc.2)

def finish (scanned : Option (Nat × κ) × List Method) : Resolution κ :=
  let (best, allowed) := scanned
  match best with
  | some (_, h) => .found h
  | none => if allowed.isEmpty then .notFound else .methodNotAllowed allowed

theorem resolve_eq (r : Router κ) (method url : String) :
    r.resolve method url =
      finish (r.routes.foldl (scanStep (requestPath url) (Method.ofName? method)) (none, [])) :=
  rfl

/-- Where the scan of a resolution on `path` for method `m` stands after the routes `seen`: the
best so far is a matching route of the method that no matching route of the method outranks, and
is none while no route of the method matches; the other methods are those of the matching routes
of other methods, each once. -/
structure Scanned (path : String) (m : Option Method) (seen : List (Route κ))
    (acc : Option (Nat × κ) × List Method) : Prop where
  unmatched : acc.1 = none → ∀ y ∈ seen, some y.method = m → y.pattern.rank? path = none
  best : ∀ k h, acc.1 = some (k, h) → ∃ x ∈ seen, some x.method = m ∧ x.pattern.rank? path = some k ∧
    x.handler = h ∧ ∀ y ∈ seen, some y.method = m → ∀ k', y.pattern.rank? path = some k' → k' ≤ k
  once : acc.2.Nodup
  others : ∀ n, n ∈ acc.2 ↔ ∃ y ∈ seen, (y.pattern.rank? path).isSome ∧ some y.method ≠ m ∧ y.method = n

theorem Scanned.nil (path : String) (m : Option Method) : Scanned (κ := κ) path m [] (none, []) :=
  ⟨by simp, by simp, List.nodup_nil, by simp⟩

theorem mem_addOnce {l : List Method} {a n : Method} :
    n ∈ (if l.contains a then l else l ++ [a]) ↔ n ∈ l ∨ n = a := by
  by_cases has : l.contains a
  · have : a ∈ l := by simpa using has
    simp only [has, if_true]
    constructor
    · exact .inl
    · rintro (mem | rfl) <;> assumption
  · have : a ∉ l := by simpa using has
    simp [this]

theorem nodup_addOnce {l : List Method} (once : l.Nodup) (a : Method) :
    (if l.contains a then l else l ++ [a]).Nodup := by
  by_cases has : l.contains a
  · simpa only [has, if_true] using once
  · simp only [has, Bool.false_eq_true, if_false]
    exact once.append (List.nodup_singleton a) (by simpa using has)

theorem Scanned.unranked {path : String} {m : Option Method} {seen : List (Route κ)}
    {acc : Option (Nat × κ) × List Method} (h : Scanned path m seen acc) {x : Route κ}
    (ranked : x.pattern.rank? path = none) : Scanned path m (seen ++ [x]) acc := by
  refine ⟨fun none y mem mine => ?_, fun k g best => ?_, h.once, fun n => ?_⟩
  · rcases List.mem_append.1 mem with mem | here
    · exact h.unmatched none y mem mine
    · rw [List.mem_singleton.1 here, ranked]
  · obtain ⟨z, mem, mine, rank, handler, top⟩ := h.best k g best
    refine ⟨z, List.mem_append_left _ mem, mine, rank, handler, fun y mem' mine' k' rank' => ?_⟩
    rcases List.mem_append.1 mem' with mem' | here
    · exact top y mem' mine' k' rank'
    · rw [List.mem_singleton.1 here, ranked] at rank'
      cases rank'
  · rw [h.others n]
    simp [ranked]

theorem Scanned.other {path : String} {m : Option Method} {seen : List (Route κ)}
    {acc : Option (Nat × κ) × List Method} (h : Scanned path m seen acc) {x : Route κ} {k : Nat}
    (ranked : x.pattern.rank? path = some k) (theirs : some x.method ≠ m) :
    Scanned path m (seen ++ [x]) (acc.1, if acc.2.contains x.method then acc.2 else acc.2 ++ [x.method]) := by
  refine ⟨fun none y mem mine => ?_, fun k' g best => ?_, nodup_addOnce h.once _, fun n => ?_⟩
  · rcases List.mem_append.1 mem with mem | here
    · exact h.unmatched none y mem mine
    · exact absurd (List.mem_singleton.1 here ▸ mine) theirs
  · obtain ⟨z, mem, mine, rank, handler, top⟩ := h.best k' g best
    refine ⟨z, List.mem_append_left _ mem, mine, rank, handler, fun y mem' mine' k'' rank' => ?_⟩
    rcases List.mem_append.1 mem' with mem' | here
    · exact top y mem' mine' k'' rank'
    · exact absurd (List.mem_singleton.1 here ▸ mine') theirs
  · rw [mem_addOnce, h.others n]
    simp only [List.mem_append, List.mem_singleton, or_and_right, exists_or, exists_eq_left, ranked,
      Option.isSome_some, true_and]
    constructor
    · rintro (found | rfl)
      · exact .inl found
      · exact .inr ⟨theirs, rfl⟩
    · rintro (found | ⟨-, rfl⟩)
      · exact .inl found
      · exact .inr rfl

theorem Scanned.mine {path : String} {m : Option Method} {seen : List (Route κ)}
    {acc : Option (Nat × κ) × List Method} (h : Scanned path m seen acc) {x : Route κ} {k : Nat}
    (ranked : x.pattern.rank? path = some k) (mine : some x.method = m) :
    Scanned path m (seen ++ [x]) (match acc.1 with
      | some (cur, _) => if cur < k then (some (k, x.handler), acc.2) else acc
      | none => (some (k, x.handler), acc.2)) := by
  -- the other methods do not change: the new route is of the method
  have others : ∀ n, n ∈ acc.2 ↔ ∃ y ∈ seen ++ [x], (y.pattern.rank? path).isSome ∧ some y.method ≠ m ∧
      y.method = n := by
    intro n
    rw [h.others n]
    simp [mine]
  -- the new route as the best, when no route seen before outranks it
  have takes : (∀ y ∈ seen, some y.method = m → ∀ k', y.pattern.rank? path = some k' → k' ≤ k) →
      Scanned path m (seen ++ [x]) (some (k, x.handler), acc.2) := by
    intro below
    refine ⟨fun none => (by cases none), fun k' g best => ?_, h.once, others⟩
    obtain ⟨rfl, rfl⟩ : k = k' ∧ x.handler = g := by simpa using best
    refine ⟨x, by simp, mine, ranked, rfl, fun y mem' mine' k'' rank' => ?_⟩
    rcases List.mem_append.1 mem' with mem' | here
    · exact below y mem' mine' k'' rank'
    · rw [List.mem_singleton.1 here, ranked] at rank'
      cases rank'
      exact le_refl _
  obtain ⟨best, allowed⟩ := acc
  cases best with
  | none =>
    exact takes fun y mem mine' k' rank' => by
      rw [h.unmatched rfl y mem mine'] at rank'
      cases rank'
  | some found =>
    obtain ⟨cur, g⟩ := found
    obtain ⟨z, mem, mine', rank, handler, top⟩ := h.best cur g rfl
    by_cases higher : cur < k
    · simp only [higher, if_true]
      exact takes fun y mem mine'' k' rank' => by
        have := top y mem mine'' k' rank'
        omega
    · simp only [higher, if_false]
      refine ⟨fun none => (by cases none), fun k' g' best => ?_, h.once, others⟩
      obtain ⟨rfl, rfl⟩ : cur = k' ∧ g = g' := by simpa using best
      refine ⟨z, List.mem_append_left _ mem, mine', rank, handler, fun y mem' mine'' k'' rank' => ?_⟩
      rcases List.mem_append.1 mem' with mem' | here
      · exact top y mem' mine'' k'' rank'
      · rw [List.mem_singleton.1 here, ranked] at rank'
        cases rank'
        omega

theorem Scanned.step {path : String} {m : Option Method} {seen : List (Route κ)}
    {acc : Option (Nat × κ) × List Method} (h : Scanned path m seen acc) (x : Route κ) :
    Scanned path m (seen ++ [x]) (scanStep path m acc x) := by
  unfold scanStep
  cases ranked : x.pattern.rank? path with
  | none => exact h.unranked ranked
  | some k =>
    by_cases mine : some x.method = m
    · simpa [mine] using h.mine ranked mine
    · simpa [mine] using h.other ranked mine

theorem Scanned.foldl {path : String} {m : Option Method} (routes : List (Route κ)) :
    ∀ (seen : List (Route κ)) (acc : Option (Nat × κ) × List Method), Scanned path m seen acc →
      Scanned path m (seen ++ routes) (routes.foldl (scanStep path m) acc) := by
  induction routes with
  | nil => simp
  | cons x rest ih =>
    intro seen acc h
    simpa using ih (seen ++ [x]) _ (h.step x)

end Router

/-! ## What a request resolves to -/

/-- What the registrations `regs` answer to a request of `method` on `path`. -/
inductive Resolves (regs : List (Registration κ)) (method path : String) : Resolution κ → Prop where
  /-- The handler of the last registration of a pattern that matches the path under the request's
  method and is at least as specific as every pattern that does. -/
  | found (g : Registration κ) (named : Method.ofName? method = some g.method)
      (last : lastOf regs g.key = some g) (matching : (Pattern.ofText g.pattern).Matches path)
      (best : ∀ g' ∈ regs, g'.method = g.method → (Pattern.ofText g'.pattern).Matches path →
        (Pattern.ofText g.pattern).AtLeast (Pattern.ofText g'.pattern)) :
      Resolves regs method path (.found g.handler)
  /-- No pattern matches the path under the request's method: the methods under which one does,
  each once. -/
  | methodNotAllowed (ms : List Method)
      (unnamed : ∀ g ∈ regs, (Pattern.ofText g.pattern).Matches path → Method.ofName? method ≠ some g.method)
      (nonempty : ms ≠ []) (once : ms.Nodup)
      (exactly : ∀ n, n ∈ ms ↔ ∃ g ∈ regs, (Pattern.ofText g.pattern).Matches path ∧ g.method = n) :
      Resolves regs method path (.methodNotAllowed ms)
  /-- No pattern matches the path. -/
  | notFound (unmatched : ∀ g ∈ regs, ¬(Pattern.ofText g.pattern).Matches path) :
      Resolves regs method path .notFound

/-- Two resolutions agree: the same handler, "method not allowed" with the same methods in any
order, or both "not found". -/
def Resolution.Agrees : Resolution κ → Resolution κ → Prop
  | .found h, .found h' => h = h'
  | .methodNotAllowed ms, .methodNotAllowed ms' => ms.Perm ms'
  | .notFound, .notFound => True
  | _, _ => False

/-- What a request resolves to is determined up to the order of the allowed methods: two patterns
of one method that are each the most specific are the same, so they have one last registration. -/
theorem Resolves.agrees {regs : List (Registration κ)} {method path : String} {r r' : Resolution κ}
    (h : Resolves regs method path r) (h' : Resolves regs method path r') : r.Agrees r' := by
  cases h with
  | found g named last matching best =>
    cases h' with
    | found g' named' last' matching' best' =>
      have method : g'.method = g.method := Option.some.inj (named'.symm.trans named)
      have same : Pattern.ofText g.pattern = Pattern.ofText g'.pattern :=
        Pattern.eq_of_atLeast matching matching' (best g' (lastOf_spec last').1 method matching')
          (best' g (lastOf_spec last).1 method.symm matching)
      have key : g'.key = g.key := by simp [Registration.key, method, same]
      rw [key, last] at last'
      exact congrArg Registration.handler (Option.some.inj last')
    | methodNotAllowed ms unnamed _ _ _ => exact absurd named (unnamed g (lastOf_spec last).1 matching)
    | notFound unmatched => exact absurd matching (unmatched g (lastOf_spec last).1)
  | methodNotAllowed ms unnamed nonempty once exactly =>
    cases h' with
    | found g' named' last' matching' _ => exact absurd named' (unnamed g' (lastOf_spec last').1 matching')
    | methodNotAllowed ms' _ _ once' exactly' =>
      exact (List.perm_ext_iff_of_nodup once once').2 fun n => (exactly n).trans (exactly' n).symm
    | notFound unmatched =>
      obtain ⟨n, mem⟩ := List.exists_mem_of_ne_nil ms nonempty
      obtain ⟨g, mem', matching, -⟩ := (exactly n).1 mem
      exact absurd matching (unmatched g mem')
  | notFound unmatched =>
    cases h' with
    | found g' _ last' matching' _ => exact absurd matching' (unmatched g' (lastOf_spec last').1)
    | methodNotAllowed ms' _ nonempty' _ exactly' =>
      obtain ⟨n, mem⟩ := List.exists_mem_of_ne_nil ms' nonempty'
      obtain ⟨g, mem', matching, -⟩ := (exactly' n).1 mem
      exact absurd matching (unmatched g mem')
    | notFound _ => trivial

theorem Resolves.of_sameOrder {regs regs' : List (Registration κ)}
    (same : ∀ k, regs'.filter (·.key = k) = regs.filter (·.key = k)) {method path : String}
    {r : Resolution κ} (h : Resolves regs' method path r) : Resolves regs method path r := by
  have mem : ∀ g, g ∈ regs' ↔ g ∈ regs := fun g => by
    simpa using congrArg (g ∈ ·) (same g.key)
  have last : ∀ k, lastOf regs' k = lastOf regs k := fun k => by simp [lastOf, same k]
  cases h with
  | found g named last' matching best =>
    exact .found g named (last g.key ▸ last') matching fun g' m => best g' ((mem g').2 m)
  | methodNotAllowed ms unnamed nonempty once exactly =>
    exact .methodNotAllowed ms (fun g m => unnamed g ((mem g).2 m)) nonempty once fun n => by
      simpa only [mem] using exactly n
  | notFound unmatched => exact .notFound fun g m => unmatched g ((mem g).2 m)

theorem utf8ByteSize_requestPath_le (url : String) : (requestPath url).utf8ByteSize ≤ url.utf8ByteSize :=
  Pattern.utf8ByteSize_le_of_prefix ⟨_, by
    rw [requestPath, String.toList_ofList, List.takeWhile_append_dropWhile]⟩

namespace Router

theorem Reflects.route_of_mem {regs : List (Registration κ)} {r : Router κ} (h : Reflects regs r)
    {g : Registration κ} (mem : g ∈ regs) :
    ∃ x ∈ r.routes, x.method = g.method ∧ x.pattern = Pattern.ofText g.pattern := by
  obtain ⟨g', last⟩ := lastOf_isSome mem
  exact ⟨⟨g.method, Pattern.ofText g.pattern, g'.handler⟩, (h _).2 ⟨g', last, rfl⟩, rfl, rfl⟩

theorem Reflects.last_of_mem {regs : List (Registration κ)} {r : Router κ} (h : Reflects regs r)
    {x : Route κ} (mem : x ∈ r.routes) :
    ∃ g ∈ regs, lastOf regs g.key = some g ∧ g.method = x.method ∧ Pattern.ofText g.pattern = x.pattern ∧
      x.handler = g.handler := by
  obtain ⟨g, last, handler⟩ := (h x).1 mem
  obtain ⟨mem', key⟩ := lastOf_spec last
  simp only [Registration.key, Prod.mk.injEq] at key
  exact ⟨g, mem', by rw [Registration.key, key.1, key.2, last], key.1, key.2, handler⟩

section Unmatched

variable {regs : List (Registration κ)} {r : Router κ} {path : String} {m : Option Method}
  {allowed : List Method}

theorem Reflects.unnamed_of_scanned (h : Reflects regs r) (scanned : Scanned path m r.routes (none, allowed))
    {g : Registration κ} (mem : g ∈ regs) (matching : (Pattern.ofText g.pattern).Matches path) :
    m ≠ some g.method := by
  intro named
  obtain ⟨y, mem', method', pattern⟩ := h.route_of_mem mem
  have unranked := scanned.unmatched rfl y mem' (by rw [method', named])
  rw [pattern, Pattern.rank?_eq_none_iff] at unranked
  exact unranked matching

theorem Reflects.mem_allowed_iff (h : Reflects regs r) (scanned : Scanned path m r.routes (none, allowed))
    (n : Method) : n ∈ allowed ↔ ∃ g ∈ regs, (Pattern.ofText g.pattern).Matches path ∧ g.method = n := by
  rw [scanned.others n]
  constructor
  · rintro ⟨y, mem, ranked, -, rfl⟩
    obtain ⟨g, mem', -, method', pattern, -⟩ := h.last_of_mem mem
    obtain ⟨k, rank⟩ := Option.isSome_iff_exists.1 ranked
    exact ⟨g, mem', pattern ▸ (Pattern.rank?_eq_some_iff.1 rank).1, method'⟩
  · rintro ⟨g, mem, matching, rfl⟩
    obtain ⟨y, mem', method', pattern⟩ := h.route_of_mem mem
    refine ⟨y, mem', ?_, ?_, method'⟩
    · rw [pattern, Pattern.rank?_eq_some_iff.2 ⟨matching, rfl⟩]
      rfl
    · rw [method']
      exact (h.unnamed_of_scanned scanned mem matching).symm

end Unmatched

theorem resolves (regs : List (Registration κ)) (method url : String) (fits : url.utf8ByteSize < wordMax) :
    Resolves regs method (requestPath url) ((ofRegistrations regs).resolve method url) := by
  have pathFits : (requestPath url).utf8ByteSize < wordMax :=
    lt_of_le_of_lt (utf8ByteSize_requestPath_le url) fits
  have reflects := reflects_ofRegistrations regs
  have scanned : Scanned (requestPath url) (Method.ofName? method) (ofRegistrations regs).routes
      ((ofRegistrations regs).routes.foldl (scanStep (requestPath url) (Method.ofName? method)) (none, [])) := by
    simpa using Scanned.foldl (ofRegistrations regs).routes [] (none, []) (Scanned.nil _ _)
  rw [resolve_eq]
  generalize (ofRegistrations regs).routes.foldl _ _ = acc at scanned ⊢
  obtain ⟨best, allowed⟩ := acc
  cases best with
  | some found =>
    obtain ⟨k, h⟩ := found
    obtain ⟨x, mem, mine, rank, rfl, top⟩ := scanned.best k h rfl
    obtain ⟨g, -, last, method', pattern, handler⟩ := reflects.last_of_mem mem
    obtain ⟨matching, rfl⟩ := Pattern.rank?_eq_some_iff.1 rank
    show Resolves regs method _ (.found x.handler)
    rw [handler]
    refine .found g (by rw [method', mine]) last (pattern ▸ matching) fun g' mem' method'' matching' => ?_
    -- the route of `g'` ranks no higher than the best one
    obtain ⟨y, memY, methodY, patternY⟩ := reflects.route_of_mem mem'
    have below := top y memY (by rw [methodY, method'', method', mine])
      _ (Pattern.rank?_eq_some_iff.2 ⟨patternY ▸ matching', rfl⟩)
    rw [← pattern, patternY] at below
    exact (Pattern.weight_le_iff pathFits (pattern ▸ matching) matching').1 below
  | none =>
    by_cases empty : allowed.isEmpty
    · show Resolves regs method _ (if allowed.isEmpty then .notFound else .methodNotAllowed allowed)
      rw [if_pos empty]
      refine .notFound fun g mem matching => ?_
      have := (reflects.mem_allowed_iff scanned g.method).2 ⟨g, mem, matching, rfl⟩
      simp [List.isEmpty_iff.1 empty] at this
    · show Resolves regs method _ (if allowed.isEmpty then .notFound else .methodNotAllowed allowed)
      rw [if_neg empty]
      exact .methodNotAllowed allowed (fun _ => reflects.unnamed_of_scanned scanned) (by simpa using empty)
        scanned.once (reflects.mem_allowed_iff scanned)

end Router

/-- A router resolves each request to what its registrations call for: the handler of the last
registration of the most specific pattern that matches the request's path under its method, an
exact pattern beating every prefix and a longer prefix a shorter one; else "method not allowed"
with each method under which a pattern matches the path, once; else "not found". Registering in
any other order that keeps the order of each method and pattern's own registrations gives the
same answer, up to the order of the allowed methods. -/
theorem requests_resolve_to_the_most_specific_route (regs : List (Registration κ)) (method url : String)
    (fits : url.utf8ByteSize < wordMax) :
    Resolves regs method (requestPath url) ((Router.ofRegistrations regs).resolve method url) ∧
      ∀ regs' : List (Registration κ), (∀ k, regs'.filter (·.key = k) = regs.filter (·.key = k)) →
        ((Router.ofRegistrations regs').resolve method url).Agrees
          ((Router.ofRegistrations regs).resolve method url) :=
  ⟨Router.resolves regs method url fits, fun regs' same =>
    ((Router.resolves regs' method url fits).of_sameOrder same).agrees (Router.resolves regs method url fits)⟩

/-- A GET below a prefix route, with an exact route of the base and a route of another method
registered around it. -/
theorem user_lookup_resolves_below_the_prefix :
    "/users/42".utf8ByteSize < wordMax ∧
      Resolves [⟨.get, "/users", 0⟩, ⟨.get, "/users/*", 1⟩, ⟨.post, "/users", 2⟩] "GET" (requestPath "/users/42")
        ((Router.ofRegistrations [⟨.get, "/users", 0⟩, ⟨.get, "/users/*", 1⟩, ⟨.post, "/users", 2⟩]).resolve
          "GET" "/users/42") ∧
      ∀ regs' : List (Registration Nat),
        (∀ k, regs'.filter (·.key = k) =
          [(⟨.get, "/users", 0⟩ : Registration Nat), ⟨.get, "/users/*", 1⟩, ⟨.post, "/users", 2⟩].filter
            (·.key = k)) →
        ((Router.ofRegistrations regs').resolve "GET" "/users/42").Agrees
          ((Router.ofRegistrations [⟨.get, "/users", 0⟩, ⟨.get, "/users/*", 1⟩, ⟨.post, "/users", 2⟩]).resolve
            "GET" "/users/42") :=
  ⟨by decide, requests_resolve_to_the_most_specific_route _ "GET" "/users/42" (by decide)⟩

end Switchboard.Web
