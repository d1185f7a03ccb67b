import Mathlib
import Switchboard.Proofs.Http.Composing

/-!
# Scanning cookie attributes

A `Set-Cookie` value is a list of attributes separated by `; `: a pair `name=value`, or a flag that
is a name alone. The cookie scanner reads each pair back and passes over each flag. After an
attribute and its `;` it stands between attributes again, expecting a name with no value pending
(`CookieScan.Reads`), so the next attribute starts afresh; the end of the text closes the last
attribute as a `;` would (`CookieScan.finish_pairs`). The value written for a cookie therefore scans
as its pair, its age and those of its optional attributes that carry a value (`scanCookies_render`).
-/

namespace Switchboard.Http

def attributeBytes : List UInt8 × Option (List UInt8) → List UInt8
  | (name, some value) => name ++ 61 :: value
  | (name, none) => name

def attributePair (a : List UInt8 × Option (List UInt8)) : Option (List UInt8 × List UInt8) :=
  a.2.map (a.1, ·)

def attributeList (first : List UInt8 × Option (List UInt8)) (rest : List (List UInt8 × Option (List UInt8))) :
    List UInt8 :=
  attributeBytes first ++ rest.flatMap fun a => 59 :: 32 :: attributeBytes a

def PlainToken (t : List UInt8) : Prop := t ≠ [] ∧ ∀ b ∈ t, b ≠ 32 ∧ b ≠ 61 ∧ b ≠ 59 ∧ b ≠ 13

def PlainAttribute (a : List UInt8 × Option (List UInt8)) : Prop := PlainToken a.1 ∧ ∀ v ∈ a.2, PlainToken v

def ScanToken (t : List UInt8) : Prop := t ≠ [] ∧ ∀ b ∈ t, b ≠ 32 ∧ b ≠ 61 ∧ b ≠ 59

def ScanAttribute (a : List UInt8 × Option (List UInt8)) : Prop := ScanToken a.1 ∧ ∀ v ∈ a.2, ScanToken v

theorem PlainToken.scan {t : List UInt8} (plain : PlainToken t) : ScanToken t :=
  ⟨plain.1, fun b mem => (plain.2 b mem).imp_right fun rest => ⟨rest.1, rest.2.1⟩⟩

theorem PlainAttribute.scan {a : List UInt8 × Option (List UInt8)} (plain : PlainAttribute a) : ScanAttribute a :=
  ⟨plain.1.scan, fun v mem => (plain.2 v mem).scan⟩

theorem CookieToken.plain {s : String} (h : CookieToken s) : PlainToken (utf8 s) := by
  obtain ⟨nonempty, separators⟩ := h.bytes
  exact ⟨nonempty, fun b mem => ⟨(separators b mem).1, (separators b mem).2.1, (separators b mem).2.2,
    fun cr => not_mem_utf8 (c := '\r') rfl (by decide) h.2.2.2.2 (cr ▸ mem)⟩⟩

namespace CookieScan

theorem run_append (s : CookieScan) (j : Nat) (xs ys : List UInt8) :
    s.run j (xs ++ ys) = (s.run j xs).run (j + xs.length) ys := by
  induction xs generalizing s j with
  | nil => rfl
  | cons b xs ih =>
    rw [List.cons_append, run, run, ih, List.length_cons, Nat.add_assoc, Nat.add_comm 1]

theorem step_blank {s : CookieScan} (outside : s.inToken = false) (j : Nat) : s.step j 32 = s := by
  have kept : { s with inToken := false } = s := by cases s; simp_all
  simp [step, outside, kept]

/-- The end of the text closes pairs as a `;` there would. -/
theorem finish_pairs (s : CookieScan) (len : Nat) : (s.finish len).pairs = (s.step len 59).pairs := by
  unfold finish step
  split <;> simp_all
  split <;> rfl

theorem step_semicolon_value {s : CookieScan} (inside : s.inToken = true) (valuing : s.expectName = false)
    (named : s.name.1 < s.name.2) {j : Nat} (valued : s.start < j) :
    s.step j 59 =
      { s with value := (j, j), name := (j, j), pairs := s.pairs ++ [(s.name, (s.start, j))],
               inToken := false, expectName := true } := by
  simp [step, close, inside, valuing, nonEmpty, named, valued]

theorem step_semicolon_flag {s : CookieScan} (inside : s.inToken = true) (naming : s.expectName = true)
    (noValue : s.value.2 ≤ s.value.1) (j : Nat) :
    s.step j 59 = { s with name := (s.start, j), inToken := false } := by
  have empty : ¬ s.value.1 < s.value.2 := Nat.not_lt.2 noValue
  simp [step, close, inside, naming, nonEmpty, empty]

/-- The scanner between attributes of `whole`: expecting a name, outside a token, with no value
pending, its pairs being the ranges of `found` in `whole`. -/
structure Reads (whole : List UInt8) (s : CookieScan) (found : List (List UInt8 × List UInt8)) : Prop where
  naming : s.expectName = true
  outside : s.inToken = false
  noValue : s.value.2 ≤ s.value.1
  pairs : s.pairs.map (fun p => (slice whole p.1, slice whole p.2)) = found

theorem Reads.init (whole : List UInt8) : Reads whole {} [] := ⟨rfl, rfl, Nat.le_refl 0, rfl⟩

end CookieScan

theorem slice_of_drop {whole pre x post : List UInt8} {j start stop : Nat}
    (located : whole.drop j = pre ++ x ++ post) (starts : j + pre.length = start)
    (stops : start + x.length = stop) : slice whole (start, stop) = x := by
  have dropped : whole.drop start = x ++ post := by
    rw [← starts, ← List.drop_drop, located, List.append_assoc, List.drop_left]
  rw [slice, dropped, ← stops, Nat.add_sub_cancel_left, List.take_left]

namespace CookieScan

variable {whole : List UInt8} {s : CookieScan} {found : List (List UInt8 × List UInt8)} {j : Nat}

theorem Reads.pair (reads : Reads whole s found) {name value post : List UInt8} (named : ScanToken name)
    (valued : ScanToken value) (located : whole.drop j = name ++ 61 :: value ++ post) (rest : List UInt8) :
    ∃ s', Reads whole s' (found ++ [(name, value)]) ∧
      s.run j (name ++ 61 :: value ++ 59 :: rest) = s'.run (j + name.length + value.length + 2) rest := by
  obtain ⟨b, ns, rfl⟩ := List.exists_cons_of_ne_nil named.1
  obtain ⟨c, vs, rfl⟩ := List.exists_cons_of_ne_nil valued.1
  have nameSlice : slice whole (j, j + 1 + ns.length) = b :: ns :=
    slice_of_drop (show whole.drop j = [] ++ b :: ns ++ (61 :: c :: vs ++ post) by simpa using located)
      (by simp) (by simp; omega)
  have valueSlice : slice whole (j + 1 + ns.length + 1, j + 1 + ns.length + 1 + 1 + vs.length) = c :: vs :=
    slice_of_drop (show whole.drop j = (b :: ns ++ [61]) ++ c :: vs ++ post by simpa using located)
      (by simp; omega) (by simp; omega)
  refine ⟨?state, ?reads, ?steps⟩
  case steps =>
    rw [List.append_assoc, run_token reads.outside named.2, List.cons_append, run,
      step_equals (s := { s with start := j, inToken := true }) rfl reads.naming,
      run_token rfl valued.2, run,
      step_semicolon_value rfl rfl (by dsimp only; omega) (by dsimp only; omega)]
    have position : j + (ns.length + 1) + (vs.length + 1) + 2 = j + 1 + ns.length + 1 + 1 + vs.length + 1 := by
      omega
    simp only [List.length_cons]
    rw [position]
  case reads =>
    refine ⟨rfl, rfl, Nat.le_refl _, ?_⟩
    rw [List.map_append, reads.pairs]
    simp only [List.map_cons, List.map_nil]
    rw [nameSlice, valueSlice]

theorem Reads.flag (reads : Reads whole s found) {name : List UInt8} (named : ScanToken name)
    (rest : List UInt8) :
    ∃ s', Reads whole s' found ∧ s.run j (name ++ 59 :: rest) = s'.run (j + name.length + 1) rest := by
  obtain ⟨b, ns, rfl⟩ := List.exists_cons_of_ne_nil named.1
  refine ⟨?state, ?reads, ?steps⟩
  case steps =>
    rw [run_token reads.outside named.2, run,
      step_semicolon_flag (s := { s with start := j, inToken := true }) rfl reads.naming reads.noValue,
      List.length_cons, show j + (ns.length + 1) + 1 = j + 1 + ns.length + 1 by omega]
  case reads => exact ⟨reads.naming, rfl, reads.noValue, reads.pairs⟩

theorem Reads.attribute (reads : Reads whole s found) {a : List UInt8 × Option (List UInt8)}
    (plain : ScanAttribute a) {post : List UInt8} (located : whole.drop j = attributeBytes a ++ post)
    (rest : List UInt8) :
    ∃ s', Reads whole s' (found ++ (attributePair a).toList) ∧
      s.run j (attributeBytes a ++ 59 :: rest) = s'.run (j + (attributeBytes a).length + 1) rest := by
  obtain ⟨name, _ | value⟩ := a
  · obtain ⟨s', reads', scanned⟩ := reads.flag plain.1 rest
    exact ⟨s', by simpa [attributePair] using reads', scanned⟩
  · obtain ⟨s', reads', scanned⟩ := reads.pair plain.1 (plain.2 value rfl) (by simpa [attributeBytes] using located) rest
    refine ⟨s', by simpa [attributePair] using reads', ?_⟩
    rw [attributeBytes, scanned]
    simp only [List.length_append, List.length_cons]
    congr 1
    omega

theorem Reads.run_attributeList (reads : Reads whole s found) (first : List UInt8 × Option (List UInt8))
    (rest : List (List UInt8 × Option (List UInt8))) (plain : ∀ a ∈ first :: rest, ScanAttribute a)
    {post : List UInt8} (located : whole.drop j = attributeList first rest ++ post) (more : List UInt8) :
    ∃ s', Reads whole s' (found ++ (first :: rest).filterMap attributePair) ∧
      s.run j (attributeList first rest ++ 59 :: more) = s'.run (j + (attributeList first rest).length + 1) more := by
  induction rest generalizing first s j found with
  | nil =>
    obtain ⟨s', reads', scanned⟩ := reads.attribute (plain _ List.mem_cons_self)
      (by simpa [attributeList] using located) more
    refine ⟨s', ?_, by simpa [attributeList] using scanned⟩
    obtain ⟨name, _ | value⟩ := first <;> simpa [List.filterMap_cons, attributePair] using reads'
  | cons next rest ih =>
    have separated : attributeList first (next :: rest) =
        attributeBytes first ++ 59 :: 32 :: attributeList next rest := by
      simp [attributeList]
    have located₁ : whole.drop j = attributeBytes first ++ (59 :: 32 :: attributeList next rest ++ post) := by
      rw [located, separated]
      simp
    obtain ⟨s₁, reads₁, scanned⟩ := reads.attribute (plain _ List.mem_cons_self) located₁
      (32 :: (attributeList next rest ++ 59 :: more))
    have after : whole.drop (j + (attributeBytes first).length + 1 + 1) = attributeList next rest ++ post := by
      have shift : j + (attributeBytes first).length + 1 + 1 = j + ((attributeBytes first ++ [59, 32]).length) := by
        simp only [List.length_append, List.length_cons, List.length_nil]
        omega
      have regroup : attributeBytes first ++ 59 :: 32 :: attributeList next rest ++ post =
          (attributeBytes first ++ [59, 32]) ++ (attributeList next rest ++ post) := by simp
      rw [shift, ← List.drop_drop, located, separated, regroup, List.drop_left]
    obtain ⟨s', reads', scanned'⟩ := ih reads₁ next (fun a mem => plain a (List.mem_cons_of_mem first mem)) after
    refine ⟨s', ?_, ?_⟩
    · cases first with
      | mk name value => cases value <;> simpa [List.filterMap_cons, attributePair] using reads'
    · rw [separated, List.append_assoc, List.cons_append, List.cons_append, scanned, run,
        step_blank reads₁.outside, scanned']
      simp only [List.length_append, List.length_cons]
      congr 1
      omega

theorem Reads.finish_attributeList (reads : Reads whole s found) (first : List UInt8 × Option (List UInt8))
    (rest : List (List UInt8 × Option (List UInt8))) (plain : ∀ a ∈ first :: rest, ScanAttribute a)
    (located : whole.drop j = attributeList first rest) :
    ((s.run j (attributeList first rest)).finish whole.length).pairs.map
        (fun p => (slice whole p.1, slice whole p.2)) = found ++ (first :: rest).filterMap attributePair := by
  have located' : whole.drop j = attributeList first rest ++ [] := by rw [List.append_nil, located]
  obtain ⟨s', reads', scanned⟩ := reads.run_attributeList first rest plain located' []
  have whole_length : whole.length = j + (attributeList first rest).length := by
    have nonempty : (attributeList first rest).length ≠ 0 := by
      obtain ⟨name, value⟩ := first
      have named := (plain _ List.mem_cons_self).1.1
      cases value <;> simp_all [attributeList, attributeBytes]
    have := congrArg List.length located
    simp only [List.length_drop] at this
    omega
  have closing : (s.run j (attributeList first rest)).step (j + (attributeList first rest).length) 59 =
      s.run j (attributeList first rest ++ [59]) := by
    rw [run_append, run, run]
  rw [finish_pairs, whole_length, closing, scanned, run]
  exact reads'.pairs

theorem Reads.finish_attributeList_closed (reads : Reads whole s found) (first : List UInt8 × Option (List UInt8))
    (rest : List (List UInt8 × Option (List UInt8))) (plain : ∀ a ∈ first :: rest, ScanAttribute a)
    (located : whole.drop j = attributeList first rest ++ [59]) :
    ((s.run j (attributeList first rest ++ [59])).finish whole.length).pairs.map
        (fun p => (slice whole p.1, slice whole p.2)) = found ++ (first :: rest).filterMap attributePair := by
  obtain ⟨s', reads', scanned⟩ := reads.run_attributeList first rest plain located []
  rw [scanned, run, finish, if_neg (by rw [reads'.outside]; decide)]
  exact reads'.pairs

end CookieScan

theorem scanCookies_attributeList (first : List UInt8 × Option (List UInt8))
    (rest : List (List UInt8 × Option (List UInt8))) (plain : ∀ a ∈ first :: rest, ScanAttribute a) :
    scanCookies (attributeList first rest) =
      ((first :: rest).filterMap attributePair).map fun p => (Utf8.lenient p.1, Utf8.lenient p.2) := by
  have scanned := (CookieScan.Reads.init (attributeList first rest)).finish_attributeList first rest plain
    List.drop_zero
  rw [List.nil_append] at scanned
  rw [scanCookies, ← scanned, List.map_map]
  rfl

theorem scanCookies_attributeList_closed (first : List UInt8 × Option (List UInt8))
    (rest : List (List UInt8 × Option (List UInt8))) (plain : ∀ a ∈ first :: rest, ScanAttribute a) :
    scanCookies (attributeList first rest ++ [59]) =
      ((first :: rest).filterMap attributePair).map fun p => (Utf8.lenient p.1, Utf8.lenient p.2) := by
  have scanned := (CookieScan.Reads.init (attributeList first rest ++ [59])).finish_attributeList_closed first rest
    plain List.drop_zero
  rw [List.nil_append] at scanned
  rw [scanCookies, ← scanned, List.map_map]
  rfl

def cookieList : List (List UInt8 × Option (List UInt8)) → List UInt8
  | [] => []
  | first :: rest => attributeList first rest

instance : DecidablePred ScanToken := fun _ => inferInstanceAs (Decidable (_ ∧ _))
instance : DecidablePred ScanAttribute := fun _ => inferInstanceAs (Decidable (_ ∧ _))

/-- A list of cookie attributes, each a pair of tokens or a flag token, joined by `; ` and closed by
a `;` or not, adds to a cookie list exactly the pairs it carries, in order: a flag adds nothing and
takes no value from the attributes beside it. -/
theorem cookie_lists_scan_as_their_pairs (items : List (List UInt8 × Option (List UInt8)))
    (plain : ∀ a ∈ items, ScanAttribute a) (closed : Bool) (cookies : Cookies) :
    (cookies.insertAll (scanCookies (cookieList items ++ if closed then [59] else []))).entries =
      cookies.entries ++ (items.filterMap attributePair).map fun p => (Utf8.lenient p.1, Utf8.lenient p.2) := by
  show cookies.entries ++ _ = _
  congr 1
  cases items with
  | nil => cases closed <;> rfl
  | cons first rest =>
    cases closed with
    | false => simpa [cookieList] using scanCookies_attributeList first rest plain
    | true => exact scanCookies_attributeList_closed first rest plain

/-- `id=42; Secure; Path=/;` adds `id` and `Path` to an empty cookie list. -/
theorem id_secure_path_cookie_list_adds_its_pairs :
    (∀ a ∈ [([105, 100], some [52, 50]), ([83, 101, 99, 117, 114, 101], none), ([80, 97, 116, 104], some [47])],
        ScanAttribute a) ∧
      (({} : Cookies).insertAll (scanCookies (cookieList [([105, 100], some [52, 50]),
          ([83, 101, 99, 117, 114, 101], none), ([80, 97, 116, 104], some [47])] ++ if true then [59] else []))).entries =
        ({} : Cookies).entries ++ ([([105, 100], some [52, 50]), ([83, 101, 99, 117, 114, 101], none),
          ([80, 97, 116, 104], some [47])].filterMap attributePair).map fun p => (Utf8.lenient p.1, Utf8.lenient p.2) :=
  ⟨by decide +kernel, cookie_lists_scan_as_their_pairs _ (by decide +kernel) true {}⟩

/-- The attributes written after a cookie's pair: its age, then its domain, path, `Secure`,
`SameSite=Strict` and `HttpOnly` where they apply. -/
def SetCookie.attributes (c : SetCookie) : List (String × Option String) :=
  [("Max-Age", some (toString c.maxAge))] ++ (c.domain.map fun d => ("Domain", some d)).toList ++
    (c.path.map fun p => ("Path", some p)).toList ++ (if c.secure then [("Secure", none)] else []) ++
    (if c.strict then [("SameSite", some "Strict")] else []) ++ (if c.httpOnly then [("HttpOnly", none)] else [])

def attributeUtf8 (a : String × Option String) : List UInt8 × Option (List UInt8) := (utf8 a.1, a.2.map utf8)

/-- The cookie pairs a `Set-Cookie` value carries: the cookie's own pair, its age, and its domain,
path and same-site rule where they apply. -/
def SetCookie.pairs (c : SetCookie) : List (String × String) :=
  [(c.name, c.value), ("Max-Age", toString c.maxAge)] ++ (c.domain.map fun d => ("Domain", d)).toList ++
    (c.path.map fun p => ("Path", p)).toList ++ (if c.strict then [("SameSite", "Strict")] else [])

theorem utf8_render (c : SetCookie) :
    utf8 c.render = attributeList (attributeUtf8 (c.name, some c.value)) (c.attributes.map attributeUtf8) := by
  have text : ∀ s : String, toString s = s := fun _ => rfl
  have equals : utf8 "=" = [61] := by decide +kernel
  have age : utf8 "; Max-Age=" = 59 :: 32 :: utf8 "Max-Age" ++ [61] := by decide +kernel
  have domain : utf8 "; Domain=" = 59 :: 32 :: utf8 "Domain" ++ [61] := by decide +kernel
  have path : utf8 "; Path=" = 59 :: 32 :: utf8 "Path" ++ [61] := by decide +kernel
  have secure : utf8 "; Secure" = 59 :: 32 :: utf8 "Secure" := by decide +kernel
  have strict : utf8 "; SameSite=Strict" = 59 :: 32 :: utf8 "SameSite" ++ 61 :: utf8 "Strict" := by decide +kernel
  have httpOnly : utf8 "; HttpOnly" = 59 :: 32 :: utf8 "HttpOnly" := by decide +kernel
  obtain ⟨name, value, maxAge, d, p, s, t, h⟩ := c
  cases d <;> cases p <;> cases s <;> cases t <;> cases h <;>
    simp [SetCookie.render, SetCookie.attributes, attributeList, attributeUtf8, attributeBytes, text, equals, age,
      domain, path, secure, strict, httpOnly]

theorem SetCookie.pairs_eq (c : SetCookie) :
    c.pairs = (c.name, c.value) :: c.attributes.filterMap fun a => a.2.map (a.1, ·) := by
  obtain ⟨name, value, maxAge, d, p, s, t, h⟩ := c
  cases d <;> cases p <;> cases s <;> cases t <;> cases h <;> simp [SetCookie.pairs, SetCookie.attributes]

def SetCookie.Tokens (c : SetCookie) : Prop :=
  CookieToken c.name ∧ CookieToken c.value ∧ (∀ d ∈ c.domain, CookieToken d) ∧ ∀ p ∈ c.path, CookieToken p

instance : DecidablePred SetCookie.Tokens := fun _ => inferInstanceAs (Decidable (_ ∧ _ ∧ _ ∧ _))

theorem cookieToken_toString (n : Nat) : CookieToken (toString n) := by
  have nonempty : toString n ≠ "" := by
    intro empty
    have chars := congrArg String.toList empty
    rw [Nat.toString_eq_repr, Nat.toList_repr] at chars
    simp at chars
  refine ⟨nonempty, fun mem => ?_, fun mem => ?_, fun mem => ?_, fun mem => ?_⟩ <;>
  · have := digit_of_mem_toString mem
    simp [Char.le_def] at this

theorem SetCookie.attributes_tokens {c : SetCookie} (tokens : c.Tokens) :
    ∀ a ∈ c.attributes, CookieToken a.1 ∧ ∀ v ∈ a.2, CookieToken v := by
  obtain ⟨-, -, domain, path⟩ := tokens
  intro a mem
  simp only [SetCookie.attributes, List.mem_append, List.mem_singleton, Option.mem_toList, Option.map_eq_some_iff,
    List.mem_ite_nil_right, or_assoc] at mem
  rcases mem with rfl | ⟨d, named, rfl⟩ | ⟨p, named, rfl⟩ | ⟨-, rfl⟩ | ⟨-, rfl⟩ | ⟨-, rfl⟩
  · exact ⟨(by decide : CookieToken "Max-Age"), by simpa using cookieToken_toString c.maxAge⟩
  · exact ⟨(by decide : CookieToken "Domain"), by simpa using domain d named⟩
  · exact ⟨(by decide : CookieToken "Path"), by simpa using path p named⟩
  · exact ⟨(by decide : CookieToken "Secure"), by simp⟩
  · exact ⟨(by decide : CookieToken "SameSite"), by simpa using (by decide : CookieToken "Strict")⟩
  · exact ⟨(by decide : CookieToken "HttpOnly"), by simp⟩

theorem plainAttribute_utf8 {a : String × Option String} (tokens : CookieToken a.1 ∧ ∀ v ∈ a.2, CookieToken v) :
    PlainAttribute (attributeUtf8 a) := by
  refine ⟨tokens.1.plain, fun v mem => ?_⟩
  obtain ⟨s, inside, rfl⟩ := Option.mem_map.1 mem
  exact (tokens.2 s inside).plain

theorem attributePair_utf8 (a : String × Option String) :
    attributePair (attributeUtf8 a) = (a.2.map (a.1, ·)).map fun p => (utf8 p.1, utf8 p.2) := by
  obtain ⟨name, _ | value⟩ := a <;> rfl

theorem SetCookie.plain_attributes {c : SetCookie} (tokens : c.Tokens) :
    ∀ a ∈ attributeUtf8 (c.name, some c.value) :: c.attributes.map attributeUtf8, PlainAttribute a := by
  intro a mem
  rcases List.mem_cons.1 mem with rfl | inside
  · exact plainAttribute_utf8 ⟨tokens.1, by simpa using tokens.2.1⟩
  · obtain ⟨b, listed, rfl⟩ := List.mem_map.1 inside
    exact plainAttribute_utf8 (SetCookie.attributes_tokens tokens b listed)

/-- The `Set-Cookie` value of a cookie whose parts are tokens scans as the cookie's pairs. -/
theorem scanCookies_render {c : SetCookie} (tokens : c.Tokens) : scanCookies (utf8 c.render) = c.pairs := by
  rw [utf8_render, scanCookies_attributeList _ _ fun a mem => (SetCookie.plain_attributes tokens a mem).scan,
    SetCookie.pairs_eq, ← List.map_cons, List.filterMap_map]
  simp [attributePair_utf8, List.map_filterMap, Function.comp_def]

theorem not_mem_attributeList {first : List UInt8 × Option (List UInt8)}
    {rest : List (List UInt8 × Option (List UInt8))} (plain : ∀ a ∈ first :: rest, PlainAttribute a) :
    13 ∉ attributeList first rest := by
  have each : ∀ a, PlainAttribute a → 13 ∉ attributeBytes a := by
    rintro ⟨name, _ | value⟩ ⟨named, valued⟩ mem
    · exact (named.2 13 mem).2.2.2 rfl
    · rcases List.mem_append.1 mem with inName | inValue
      · exact (named.2 13 inName).2.2.2 rfl
      · rcases List.mem_cons.1 inValue with eq | inValue
        · exact absurd eq (by decide)
        · exact ((valued value rfl).2 13 inValue).2.2.2 rfl
  simp only [attributeList, List.mem_append, List.mem_flatMap, List.mem_cons, not_or, not_exists, not_and]
  refine ⟨each first (plain first List.mem_cons_self), fun a listed => ⟨by decide, by decide, ?_⟩⟩
  exact each a (plain a (List.mem_cons_of_mem first listed))

theorem head?_attributeList {first : List UInt8 × Option (List UInt8)} (named : first.1 ≠ [])
    (rest : List (List UInt8 × Option (List UInt8))) : (attributeList first rest).head? = first.1.head? := by
  obtain ⟨b, bs, eq⟩ := List.exists_cons_of_ne_nil named
  obtain ⟨name, _ | value⟩ := first <;> simp_all [attributeList, attributeBytes]

theorem HeaderValue.of_utf8 {s : String} (noCr : 13 ∉ utf8 s) (starts : ∀ b ∈ (utf8 s).head?, b ≠ 32 ∧ b ≠ 9) :
    HeaderValue s := by
  have blank : ∀ c : Char, c.toNat < 0x80 → s.toList.head? = some c → (UInt8.ofNat c.toNat) ∈ (utf8 s).head? := by
    intro c ascii first
    obtain ⟨cs, chars⟩ : ∃ cs, s.toList = c :: cs := by
      cases h : s.toList with
      | nil => simp [h] at first
      | cons d ds => exact ⟨ds, by simp_all⟩
    rw [head?_utf8 chars, utf8EncodeChar_of_lt ascii]
    rfl
  refine ⟨fun mem => noCr ((mem_utf8_iff (by decide) s).2 mem), fun first => ?_, fun first => ?_⟩
  · exact (starts _ (blank ' ' (by decide) first)).1 rfl
  · exact (starts _ (blank '\t' (by decide) first)).2 rfl

theorem headerValue_render {c : SetCookie} (tokens : c.Tokens) (untabbed : c.name.toList.head? ≠ some '\t') :
    HeaderValue c.render := by
  refine HeaderValue.of_utf8 (by rw [utf8_render]; exact not_mem_attributeList (SetCookie.plain_attributes tokens)) fun b first => ⟨?_, ?_⟩
  · rw [utf8_render, head?_attributeList tokens.1.plain.1] at first
    exact (tokens.1.plain.2 b (List.mem_of_mem_head? first)).1
  · rw [utf8_render, head?_attributeList tokens.1.plain.1] at first
    rintro rfl
    exact not_mem_head?_utf8 (c := '\t') rfl (by decide) untabbed first

end Switchboard.Http
