import Mathlib
import Switchboard.Proofs.WebSocket.OpeningHandshake
/-!
# What decides a server upgrade

Judging the headers one by one keeps, for each of the four upgrade headers, whether one signalled
and whether one spoiled the upgrade; these alone decide between no upgrade, a `400`, and the
handler's `101` or `403` (`upgrade_decision_reads_only_the_upgrade_headers`).
-/
namespace Switchboard.Ascii

theorem eqFold_left {n a : String} (h : eqFold n a = true) (b : String) : eqFold n b = eqFold a b := by
  unfold eqFold at h ⊢
  rw [beq_iff_eq.1 h]

end Switchboard.Ascii

namespace Switchboard.WebSocket

open Http

/-! ## The four fields -/

/-- The request headers that bear on an upgrade. -/
inductive UpgradeField where
  | connection
  | upgrade
  | version
  | key
  deriving DecidableEq

namespace UpgradeField

def name : UpgradeField → String
  | connection => "Connection"
  | upgrade => "Upgrade"
  | version => "Sec-WebSocket-Version"
  | key => "Sec-WebSocket-Key"

def valid : UpgradeField → String → Bool
  | connection, v => isUpgradeConnection v
  | upgrade, v => Ascii.eqFold v "websocket"
  | version, v => v == protocolVersion
  | key, v => !v.isEmpty

def all : List UpgradeField := [connection, upgrade, version, key]

theorem mem_all (f : UpgradeField) : f ∈ all := by
  cases f <;> simp [all]

theorem eq_of_eqFold {n : String} {f g : UpgradeField} (hf : Ascii.eqFold n f.name = true)
    (hg : Ascii.eqFold n g.name = true) : f = g := by
  rw [Ascii.eqFold_left hf] at hg
  revert hg
  cases f <;> cases g <;> decide

end UpgradeField

def signals (f : UpgradeField) (x : String × String) : Bool := Ascii.eqFold x.1 f.name && f.valid x.2

def spoils (x : String × String) : Bool := UpgradeField.all.any fun f => Ascii.eqFold x.1 f.name && !f.valid x.2

/-! ## Judging the headers -/

def fieldOf (name : String) : Option UpgradeField :=
  if Ascii.eqFold name "Connection" then some .connection
  else if Ascii.eqFold name "Upgrade" then some .upgrade
  else if Ascii.eqFold name "Sec-WebSocket-Key" then some .key
  else if Ascii.eqFold name "Sec-WebSocket-Version" then some .version
  else none

theorem fieldOf_eq_some {name : String} {f : UpgradeField} : fieldOf name = some f ↔ Ascii.eqFold name f.name = true := by
  constructor
  · unfold fieldOf
    split_ifs <;> rintro ⟨⟩ <;> assumption
  · intro named
    unfold fieldOf
    cases f <;> simp [UpgradeField.name, Ascii.eqFold_left named] <;> decide

theorem fieldOf_eq_none {name : String} : fieldOf name = none ↔ ∀ f : UpgradeField, Ascii.eqFold name f.name = false := by
  constructor
  · intro none f
    cases named : Ascii.eqFold name f.name
    · rfl
    · rw [fieldOf_eq_some.2 named] at none
      cases none
  · intro unnamed
    have connection := unnamed .connection
    have upgrade := unnamed .upgrade
    have key := unnamed .key
    have version := unnamed .version
    simp only [UpgradeField.name] at connection upgrade key version
    simp [fieldOf, connection, upgrade, key, version]

theorem eqFold_name_of_ne {name : String} {f g : UpgradeField} (field : fieldOf name = some g) (other : g ≠ f) :
    Ascii.eqFold name f.name = false := by
  cases named : Ascii.eqFold name f.name
  · rfl
  · exact absurd (UpgradeField.eq_of_eqFold (fieldOf_eq_some.1 field) named) other

namespace UpgradeHeaders

/-- What judging keeps for each field: whether a header signalled it; for the key, whether an accept
key was made. -/
def flag (s : UpgradeHeaders) : UpgradeField → Bool
  | .connection => s.connection
  | .upgrade => s.upgrade
  | .version => s.version
  | .key => s.accept.isSome

theorem quiet_eq (s : UpgradeHeaders) :
    (!s.connection && !s.upgrade && !s.version && s.accept.isNone) = !UpgradeField.all.any s.flag := by
  cases keyed : s.accept <;> simp [UpgradeField.all, flag, keyed, Bool.and_assoc]

theorem ready_eq (s : UpgradeHeaders) {accept : String} (keyed : s.accept = some accept) :
    (s.connection && s.upgrade && s.version && !s.error) = (UpgradeField.all.all s.flag && !s.error) := by
  simp [UpgradeField.all, flag, keyed, Bool.and_assoc]

variable [Crypto]

def mark (s : UpgradeHeaders) (value : String) : UpgradeField → UpgradeHeaders
  | .connection => { s with connection := true }
  | .upgrade => { s with upgrade := true }
  | .version => { s with version := true }
  | .key => { s with accept := some (acceptKey value) }

theorem judge_eq (s : UpgradeHeaders) (x : String × String) :
    s.judge x = match fieldOf x.1 with
      | none => s
      | some f => if f.valid x.2 then s.mark x.2 f else { s with error := true } := by
  obtain ⟨name, value⟩ := x
  unfold judge fieldOf
  split_ifs <;> simp_all [mark, UpgradeField.valid] <;> rfl

theorem flag_judge (s : UpgradeHeaders) (x : String × String) (f : UpgradeField) :
    (s.judge x).flag f = (s.flag f || signals f x) := by
  rw [judge_eq]
  cases field : fieldOf x.1 with
  | none =>
    have unnamed := fieldOf_eq_none.1 field f
    simp [signals, unnamed]
  | some g =>
    dsimp only
    -- the header is the field `g`, and signals no other
    by_cases same : g = f
    · subst same
      have named := fieldOf_eq_some.1 field
      cases valid : g.valid x.2 <;> cases g <;> simp [flag, mark, signals, named, valid]
    · have other := eqFold_name_of_ne field same
      cases g.valid x.2 <;> cases g <;> cases f <;> simp_all [flag, mark, signals]

theorem error_judge (s : UpgradeHeaders) (x : String × String) :
    (s.judge x).error = (s.error || spoils x) := by
  rw [judge_eq]
  cases field : fieldOf x.1 with
  | none =>
    have unnamed := fieldOf_eq_none.1 field
    simp [spoils, UpgradeField.all, unnamed]
  | some g =>
    have named := fieldOf_eq_some.1 field
    -- only the field the header is can spoil the upgrade
    have spoiled : spoils x = !g.valid x.2 := by
      rw [spoils, Bool.eq_iff_iff, List.any_eq_true]
      constructor
      · rintro ⟨f, -, bad⟩
        simp only [Bool.and_eq_true, Bool.not_eq_true'] at bad
        rw [UpgradeField.eq_of_eqFold named bad.1, bad.2]
        rfl
      · intro bad
        exact ⟨g, UpgradeField.mem_all g, by simpa [named] using bad⟩
    rw [spoiled]
    dsimp only
    cases valid : g.valid x.2 <;> cases g <;> simp [mark]

theorem accept_judge (s : UpgradeHeaders) (x : String × String) :
    (s.judge x).accept = if signals .key x then some (acceptKey x.2) else s.accept := by
  rw [judge_eq]
  cases field : fieldOf x.1 with
  | none =>
    have unnamed := fieldOf_eq_none.1 field .key
    simp [signals, unnamed]
  | some g =>
    dsimp only
    by_cases same : g = .key
    · subst same
      have named := fieldOf_eq_some.1 field
      cases valid : UpgradeField.key.valid x.2 <;> simp [mark, signals, named, valid]
    · have other := eqFold_name_of_ne field same
      cases g.valid x.2 <;> cases g <;> simp_all [mark, signals]

omit [Crypto] in
theorem foldl_or {α β : Type} (f : β → α → β) (p : β → Bool) (g : α → Bool)
    (step : ∀ s x, p (f s x) = (p s || g x)) (s : β) (xs : List α) :
    p (xs.foldl f s) = (p s || xs.any g) := by
  induction xs generalizing s with
  | nil => simp
  | cons x xs ih => rw [List.foldl_cons, ih, step, List.any_cons, Bool.or_assoc]

theorem flag_foldl_judge (s : UpgradeHeaders) (hs : List (String × String)) (f : UpgradeField) :
    (hs.foldl judge s).flag f = (s.flag f || hs.any (signals f)) :=
  foldl_or judge (flag · f) (signals f) (fun s x => flag_judge s x f) s hs

theorem error_foldl_judge (s : UpgradeHeaders) (hs : List (String × String)) :
    (hs.foldl judge s).error = (s.error || hs.any spoils) :=
  foldl_or judge error spoils error_judge s hs

/-- Judging the headers keeps the accept key of the last key that signals an upgrade. -/
theorem accept_foldl_judge (s : UpgradeHeaders) (hs : List (String × String)) :
    (hs.foldl judge s).accept = ((hs.filter (signals .key)).getLast?.map (acceptKey ·.2)).or s.accept := by
  induction hs generalizing s with
  | nil => simp
  | cons x hs ih =>
    rw [List.foldl_cons, ih, accept_judge, List.getLast?_filter, List.getLast?_filter, List.reverse_cons,
      List.find?_append]
    cases key : signals .key x <;> simp [key]

end UpgradeHeaders

theorem signals_of_clean {x : String × String} (clean : spoils x = false) {f : UpgradeField}
    (named : Ascii.eqFold x.1 f.name = true) : signals f x = true := by
  rw [spoils, List.any_eq_false] at clean
  have valid := clean f (UpgradeField.mem_all f)
  simp_all [signals]

end Switchboard.WebSocket

/-! ## The outcome -/

namespace Switchboard.Http

open WebSocket

namespace Request

def SignalsUpgrade (q : Request) : Prop := ∃ x ∈ q.headers.entries, ∃ f, signals f x = true

def ValidUpgrade (q : Request) : Prop :=
  (∀ f, ∃ x ∈ q.headers.entries, signals f x = true) ∧ ∀ x ∈ q.headers.entries, spoils x = false

theorem ValidUpgrade.signals {q : Request} (valid : q.ValidUpgrade) : q.SignalsUpgrade := by
  obtain ⟨x, mem, yes⟩ := valid.1 .key
  exact ⟨x, mem, .key, yes⟩

def lastKey (q : Request) : Option String := (q.headers.getAll "Sec-WebSocket-Key").getLast?

variable [Crypto]

def upgradeHeaders (q : Request) : UpgradeHeaders := q.headers.entries.foldl UpgradeHeaders.judge {}

theorem flag_upgradeHeaders (q : Request) (f : UpgradeField) :
    q.upgradeHeaders.flag f = q.headers.entries.any (signals f) := by
  rw [upgradeHeaders, UpgradeHeaders.flag_foldl_judge]
  cases f <;> rfl

theorem error_upgradeHeaders (q : Request) : q.upgradeHeaders.error = q.headers.entries.any spoils := by
  rw [upgradeHeaders, UpgradeHeaders.error_foldl_judge]
  rfl

theorem signalsUpgrade_iff (q : Request) :
    q.SignalsUpgrade ↔ UpgradeField.all.any q.upgradeHeaders.flag = true := by
  simp only [SignalsUpgrade, List.any_eq_true, flag_upgradeHeaders]
  constructor
  · rintro ⟨x, mem, f, yes⟩
    exact ⟨f, UpgradeField.mem_all f, x, mem, yes⟩
  · rintro ⟨f, -, x, mem, yes⟩
    exact ⟨x, mem, f, yes⟩

theorem validUpgrade_iff (q : Request) :
    q.ValidUpgrade ↔ (UpgradeField.all.all q.upgradeHeaders.flag && !q.upgradeHeaders.error) = true := by
  simp only [ValidUpgrade, Bool.and_eq_true, List.all_eq_true, flag_upgradeHeaders, List.any_eq_true,
    Bool.not_eq_true', error_upgradeHeaders, List.any_eq_false, Bool.not_eq_true]
  constructor
  · rintro ⟨every, clean⟩
    exact ⟨fun f _ => every f, clean⟩
  · rintro ⟨every, clean⟩
    exact ⟨fun f => every f (UpgradeField.mem_all f), clean⟩

instance : DecidablePred SignalsUpgrade := fun q => decidable_of_iff _ (signalsUpgrade_iff q).symm

instance : DecidablePred ValidUpgrade := fun q => decidable_of_iff _ (validUpgrade_iff q).symm

theorem accept_upgradeHeaders {q : Request} (valid : q.ValidUpgrade) :
    ∃ k, q.lastKey = some k ∧ q.upgradeHeaders.accept = some (acceptKey k) := by
  obtain ⟨every, clean⟩ := valid
  have keys : q.headers.entries.filter (signals .key) =
      q.headers.entries.filter (Fields.nameMatches true ·.1 "Sec-WebSocket-Key") := by
    apply List.filter_congr
    intro x mem
    cases named : Ascii.eqFold x.1 "Sec-WebSocket-Key"
    · simp [signals, Fields.nameMatches, UpgradeField.name, named]
    · rw [signals_of_clean (f := .key) (clean x mem) named]
      simp [Fields.nameMatches, named]
  obtain ⟨x, mem, yes⟩ := every .key
  obtain ⟨y, last⟩ : ∃ y, (q.headers.entries.filter (signals .key)).getLast? = some y :=
    Option.isSome_iff_exists.1 (List.getLast?_isSome.2 (List.ne_nil_of_mem (List.mem_filter.2 ⟨mem, yes⟩)))
  refine ⟨y.2, ?_, ?_⟩
  · rw [lastKey, Fields.getAll, List.getLast?_map, ← keys, last]
    rfl
  · rw [upgradeHeaders, UpgradeHeaders.accept_foldl_judge, last]
    rfl

end Request

/-- A complete error answer: the status line of `status`, a plain-text `Content-Type`, and `text` as
its body, whatever the response held before. -/
def Response.Refuses (r : Response) (status : Nat) (text : String) : Prop :=
  r.state = .complete ∧
    Response.Composed r status http11 [.setHeader "Content-Type" "text/plain; charset=UTF-8"] (utf8 text)

theorem Response.refuses_makeError (r : Response) (status : Nat) (text : String) :
    (r.makeError status text).Refuses status text :=
  ⟨rfl, ((Response.composing_setBeginWith r status http11).setHeader _ _).setBody (utf8 text)⟩

end Switchboard.Http

namespace Switchboard.WebSocket

open Http

section

variable [Crypto]

def upgradeAnswer (response : Response) (k : String) : Response :=
  (response.setBegin 101).setHeaders (acceptHeaders (acceptKey k))

/-- A handler that decides from its state, the request and the answer prepared whether to let an
upgrade go ahead, and adds headers to the answer. -/
def approveWith {σ : Type} (verdict : σ → Request → Response → Bool × List (String × String) × σ)
    (handler : σ) (q : Request) (r : Response) : Bool × Response × σ :=
  ((verdict handler q r).1, r.setHeaders (verdict handler q r).2.1, (verdict handler q r).2.2)

theorem accepted_answer (response : Response) (k : String) (added : List (String × String)) :
    (((upgradeAnswer response k).setHeaders added).setBody []).state = .complete ∧
      (((upgradeAnswer response k).setHeaders added).setBody []).status = 101 ∧
      (((upgradeAnswer response k).setHeaders added).setBody []).headers.get? "Sec-WebSocket-Accept" =
        some (acceptKey k) := by
  have composing := (Response.composing_setBeginWith response 101 http11).setHeaders (acceptHeaders (acceptKey k) ++ added)
  rw [List.nil_append, Response.setHeaders_append] at composing
  have composed : Response.Composed (((upgradeAnswer response k).setHeaders added).setBody []) 101 http11
      (Response.Command.setHeaders (acceptHeaders (acceptKey k) ++ added)) [] := composing.setBody []
  refine ⟨rfl, composed.status, ?_⟩
  rw [composed.headers, Response.Command.header?_setHeaders]
  simp +decide [Fields.get?, acceptHeaders, Fields.nameMatches]

section Outcome

variable {σ : Type} (e : Engine) (q : Request) (response : Response) (handler : σ)
  (approve : σ → Request → Response → Bool × Response × σ)

theorem serverUpgrade_eq :
    e.serverUpgrade q response handler approve =
      if q.method != "GET" then (.notRequested, e, response, handler)
      else if !UpgradeField.all.any q.upgradeHeaders.flag then (.notRequested, e, response, handler)
      else match q.upgradeHeaders.accept with
        | some accept =>
          if UpgradeField.all.all q.upgradeHeaders.flag && !q.upgradeHeaders.error then
            match approve handler q ((((response.setBegin 101).setHeader "Connection" "Upgrade").setHeader
                "Upgrade" "websocket").setHeader "Sec-WebSocket-Accept" accept) with
            | (go, response, handler) =>
              if go then (.accepted, { e with handshaked := true }, response.setBody [], handler)
              else (.rejected, e, response.makeError 403 "WebSocket upgrade rejected", handler)
          else (.rejected, e, response.makeError 400 "Invalid WebSocket handshake request", handler)
        | none => (.rejected, e, response.makeError 400 "Invalid WebSocket handshake request", handler) := by
  unfold Engine.serverUpgrade
  dsimp only
  rw [show q.headers.entries.foldl UpgradeHeaders.judge {} = q.upgradeHeaders from rfl, ← UpgradeHeaders.quiet_eq]
  split
  · rfl
  · split
    · rfl
    · cases keyed : q.upgradeHeaders.accept with
      | none => rfl
      | some accept => rw [UpgradeHeaders.ready_eq _ keyed]

/-- Another method than GET, or headers that signal nothing, ask for no upgrade: the engine and the
answer are left alone and the handler is not asked. -/
theorem serverUpgrade_of_quiet (quiet : q.method ≠ "GET" ∨ ¬ q.SignalsUpgrade) :
    e.serverUpgrade q response handler approve = (.notRequested, e, response, handler) := by
  rw [serverUpgrade_eq]
  rcases quiet with other | silent
  · simp [other]
  · rw [Request.signalsUpgrade_iff, Bool.not_eq_true] at silent
    simp [silent]

/-- A GET that signals an upgrade but does not ask for it validly is refused with `400`; the engine
is left alone and the handler is not asked. -/
theorem serverUpgrade_of_invalid (get : q.method = "GET") (signalled : q.SignalsUpgrade)
    (invalid : ¬ q.ValidUpgrade) :
    e.serverUpgrade q response handler approve =
      (.rejected, e, response.makeError 400 "Invalid WebSocket handshake request", handler) := by
  rw [Request.signalsUpgrade_iff] at signalled
  rw [Request.validUpgrade_iff, Bool.not_eq_true] at invalid
  rw [serverUpgrade_eq]
  simp only [get, bne_self_eq_false, signalled, invalid, Bool.not_true, Bool.false_eq_true, if_false]
  split <;> rfl

/-- A GET that asks validly for an upgrade is put to the handler, with the `101` answer for the last
key; the server accepts with what the handler made of it, or refuses with `403`. -/
theorem serverUpgrade_of_valid (get : q.method = "GET") (valid : q.ValidUpgrade) :
    ∃ k, q.lastKey = some k ∧ e.serverUpgrade q response handler approve =
      if (approve handler q (upgradeAnswer response k)).1 then
        (.accepted, { e with handshaked := true }, (approve handler q (upgradeAnswer response k)).2.1.setBody [],
          (approve handler q (upgradeAnswer response k)).2.2)
      else
        (.rejected, e, (approve handler q (upgradeAnswer response k)).2.1.makeError 403 "WebSocket upgrade rejected",
          (approve handler q (upgradeAnswer response k)).2.2) := by
  obtain ⟨k, last, keyed⟩ := Request.accept_upgradeHeaders valid
  have signalled := (Request.signalsUpgrade_iff q).1 valid.signals
  have ready := (Request.validUpgrade_iff q).1 valid
  refine ⟨k, last, ?_⟩
  rw [serverUpgrade_eq]
  simp only [get, bne_self_eq_false, signalled, ready, keyed, Bool.not_true, Bool.false_eq_true, if_false, if_true]
  rfl

end Outcome

/-- The upgrade decision reads nothing of a request but its method and its four upgrade fields. It
is no upgrade, the engine and the answer left alone, exactly when the method is not GET or no header
signals an upgrade. It is accepted exactly when a GET asks validly for an upgrade and the handler
approves the `101` answer for the last key; the answer is then complete, `101`, with the accept key
of that last key, and the engine is handshaked. Otherwise it is refused and the engine left alone:
with `403`, none of the handler's headers kept, when the request was valid, with `400` when not. -/
theorem upgrade_decision_reads_only_the_upgrade_headers {σ : Type} (e : Engine) (q : Request)
    (response : Response) (handler : σ) (verdict : σ → Request → Response → Bool × List (String × String) × σ)
    {outcome : Upgrade} {engine : Engine} {answer : Response} {next : σ}
    (result : e.serverUpgrade q response handler (approveWith verdict) = (outcome, engine, answer, next)) :
    (outcome = .notRequested ↔ q.method ≠ "GET" ∨ ¬ q.SignalsUpgrade) ∧
      (outcome = .notRequested → engine = e ∧ answer = response) ∧
      (outcome = .accepted ↔ q.method = "GET" ∧ q.ValidUpgrade ∧
        ∃ k, q.lastKey = some k ∧ (verdict handler q (upgradeAnswer response k)).1 = true) ∧
      (outcome = .accepted → ∃ k, q.lastKey = some k ∧ answer.state = .complete ∧ answer.status = 101 ∧
        answer.headers.get? "Sec-WebSocket-Accept" = some (acceptKey k) ∧ engine = { e with handshaked := true }) ∧
      (outcome = .rejected → engine = e ∧
        if q.ValidUpgrade then answer.Refuses 403 "WebSocket upgrade rejected"
        else answer.Refuses 400 "Invalid WebSocket handshake request") := by
  by_cases quiet : q.method ≠ "GET" ∨ ¬ q.SignalsUpgrade
  · rw [serverUpgrade_of_quiet e q response handler _ quiet, Prod.mk.injEq, Prod.mk.injEq, Prod.mk.injEq] at result
    obtain ⟨rfl, rfl, rfl, rfl⟩ := result
    refine ⟨iff_of_true rfl quiet, fun _ => ⟨rfl, rfl⟩, iff_of_false (by decide) ?_, by simp, by simp⟩
    rintro ⟨get, valid, -⟩
    exact quiet.elim (· get) (· valid.signals)
  obtain ⟨get, signalled⟩ : q.method = "GET" ∧ q.SignalsUpgrade := by simpa [not_or] using quiet
  by_cases valid : q.ValidUpgrade
  · obtain ⟨k, last, decided⟩ := serverUpgrade_of_valid e q response handler (approveWith verdict) get valid
    rw [decided] at result
    -- the handler sees the answer for the last key, and only its verdict on it matters
    have only : ∀ k', q.lastKey = some k' → (verdict handler q (upgradeAnswer response k')).1 =
        (verdict handler q (upgradeAnswer response k)).1 := by
      intro k' last'
      rw [Option.some_inj.1 (last'.symm.trans last)]
    cases go : (verdict handler q (upgradeAnswer response k)).1
    · simp only [approveWith, go, Bool.false_eq_true, if_false, Prod.mk.injEq] at result
      obtain ⟨rfl, rfl, rfl, rfl⟩ := result
      refine ⟨iff_of_false (by decide) (by simp [get, signalled]), by simp, iff_of_false (by decide) ?_, by simp,
        fun _ => ⟨rfl, ?_⟩⟩
      · rintro ⟨-, -, k', last', yes⟩
        rw [only k' last', go] at yes
        cases yes
      · rw [if_pos valid]
        exact Response.refuses_makeError _ _ _
    · simp only [approveWith, go, if_true, Prod.mk.injEq] at result
      obtain ⟨rfl, rfl, rfl, rfl⟩ := result
      refine ⟨iff_of_false (by decide) (by simp [get, signalled]), by simp, iff_of_true rfl ⟨get, valid, k, last, go⟩,
        fun _ => ⟨k, last, accepted_answer response k _ |>.1, accepted_answer response k _ |>.2.1,
          accepted_answer response k _ |>.2.2, rfl⟩, by simp⟩
  · rw [serverUpgrade_of_invalid e q response handler _ get signalled valid, Prod.mk.injEq, Prod.mk.injEq,
      Prod.mk.injEq] at result
    obtain ⟨rfl, rfl, rfl, rfl⟩ := result
    refine ⟨iff_of_false (by decide) (by simp [get, signalled]), by simp,
      iff_of_false (by decide) (fun asked => valid asked.2.1), by simp, fun _ => ⟨rfl, ?_⟩⟩
    rw [if_neg valid]
    exact Response.refuses_makeError _ _ _

end

section

attribute [local instance] Crypto.sample

/-- A GET asking validly for an upgrade, whose handler vetoes it, is refused with `403` and leaves
the engine as it was. -/
theorem vetoed_upgrade_is_refused :
    ∃ outcome engine answer next, ({ client := false } : Engine).serverUpgrade
        { method := "GET", headers := ⟨[("Connection", "Upgrade"), ("Upgrade", "websocket"),
          ("Sec-WebSocket-Version", "13"), ("Sec-WebSocket-Key", "dGhlIHNhbXBsZSBub25jZQ==")]⟩ } {} ()
        (approveWith fun u _ _ => (false, [("Server", "switchboard")], u)) = (outcome, engine, answer, next) ∧
      outcome = .rejected ∧ engine = { client := false } ∧ answer.Refuses 403 "WebSocket upgrade rejected" := by
  have valid : ({ method := "GET", headers := ⟨[("Connection", "Upgrade"), ("Upgrade", "websocket"),
      ("Sec-WebSocket-Version", "13"), ("Sec-WebSocket-Key", "dGhlIHNhbXBsZSBub25jZQ==")]⟩ } : Request).ValidUpgrade := by
    decide +kernel
  obtain ⟨outcome, engine, answer, next, result⟩ : ∃ outcome engine answer next, ({ client := false } : Engine).serverUpgrade
      { method := "GET", headers := ⟨[("Connection", "Upgrade"), ("Upgrade", "websocket"),
        ("Sec-WebSocket-Version", "13"), ("Sec-WebSocket-Key", "dGhlIHNhbXBsZSBub25jZQ==")]⟩ } {} ()
      (approveWith fun u _ _ => (false, [("Server", "switchboard")], u)) = (outcome, engine, answer, next) :=
    ⟨_, _, _, _, rfl⟩
  have decision := upgrade_decision_reads_only_the_upgrade_headers _ _ _ _ _ result
  refine ⟨outcome, engine, answer, next, result, ?_⟩
  cases outcome
  · exact absurd (decision.1.1 rfl) (by simp [valid.signals])
  · obtain ⟨kept, refused⟩ := decision.2.2.2.2 rfl
    rw [if_pos valid] at refused
    exact ⟨rfl, kept, refused⟩
  · obtain ⟨-, -, k, -, approved⟩ := decision.2.2.1.1 rfl
    cases approved

end

end Switchboard.WebSocket
