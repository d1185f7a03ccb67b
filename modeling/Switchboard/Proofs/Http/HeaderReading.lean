import Mathlib
import Switchboard.Http.HeaderLines
import Switchboard.Http.Wire
import Switchboard.Proofs.Text.Utf8
/-!
# Reading the parts of a header block

How each reader of a header block takes the bytes a composer writes. A start line of three fields
reads as those fields (`parseStartLine_append`); a header line `name: value` CR LF adds its header
and what its kind adds besides (`readHeaderLines_line`); one cookie pair reads as that pair
(`scanCookies_pair`); the decimal text of a length declares it (`parseContentLength_toString`);
and lines without CR find their first terminator where the last line's CR LF meets the CR LF after
it (`findTerminator_go_lines`).
-/
namespace Switchboard.Http

/-- What a header line adds to the scan besides the header itself: a declared length, the cookies
of a cookie header, or nothing. -/
def HeaderScan.read (acc : HeaderScan) (cookieHeader name : String) (value : List UInt8) :
    Except HttpError HeaderScan :=
  if Ascii.eqFold name "Content-Length" then
    (parseContentLength value).map fun n => { acc with contentLength := some n }
  else if Ascii.eqFold name cookieHeader then
    .ok { acc with cookies := acc.cookies.insertAll (scanCookies value) }
  else .ok acc

theorem readHeaderLines_nil (cookieHeader : String) (offset : Nat) (acc : HeaderScan) :
    readHeaderLines cookieHeader offset [] acc = (.ok acc, acc) := by
  rw [readHeaderLines, if_pos List.isEmpty_nil]

/-- A header line: a name without colon or CR, the colon, blanks, a value that starts with no blank
and holds no CR, then CR LF. It adds its header, what its kind adds besides, and reading goes on
after it. -/
theorem readHeaderLines_line {cookieHeader : String} {offset : Nat} {name blanks value : List UInt8}
    (more : List UInt8) (acc : HeaderScan)
    (named : name ≠ []) (nameEnds : 58 ∉ name ∧ 13 ∉ name) (blank : ∀ b ∈ blanks, b = 32 ∨ b = 9)
    (valueStarts : ∀ b ∈ value.head?, b ≠ 32 ∧ b ≠ 9) (valueEnds : 13 ∉ value) :
    readHeaderLines cookieHeader offset (name ++ 58 :: blanks ++ value ++ 13 :: 10 :: more) acc =
      match acc.read cookieHeader (Utf8.lenient name) value with
      | .error e => (.error e, acc)
      | .ok acc' => readHeaderLines cookieHeader (offset + name.length + blanks.length + value.length + 3)
          more { acc' with headers := acc'.headers.insert (Utf8.lenient name) (Utf8.lenient value) } := by
  have nameOk : ∀ b ∈ name, (b != 58 && b != 13) = true := by
    intro b mem
    have colon : b ≠ 58 := fun h => nameEnds.1 (h ▸ mem)
    have cr : b ≠ 13 := fun h => nameEnds.2 (h ▸ mem)
    simp [colon, cr]
  have valueOk : ∀ b ∈ value, (b != 13) = true := by
    intro b mem
    have cr : b ≠ 13 := fun h => valueEnds (h ▸ mem)
    simp [cr]
  have blanksOk : ∀ b ∈ blanks, (b == 32 || b == 9) = true := by
    intro b mem
    rcases blank b mem with rfl | rfl <;> rfl
  have takeName : (name ++ 58 :: blanks ++ value ++ 13 :: 10 :: more).takeWhile
      (fun b => b != 58 && b != 13) = name := by
    simp [List.takeWhile_append_of_pos nameOk]
  have dropName : (name ++ 58 :: blanks ++ value ++ 13 :: 10 :: more).dropWhile
      (fun b => b != 58 && b != 13) = 58 :: (blanks ++ value ++ 13 :: 10 :: more) := by
    simp [List.dropWhile_append_of_pos nameOk]
  have dropBlanks : (blanks ++ value ++ 13 :: 10 :: more).dropWhile (fun c => c == 32 || c == 9) =
      value ++ 13 :: 10 :: more := by
    rw [List.append_assoc, List.dropWhile_append_of_pos blanksOk]
    cases value with
    | nil => simp
    | cons c cs =>
      have first := valueStarts c rfl
      simp [first.1, first.2]
  have takeValue : (value ++ 13 :: 10 :: more).takeWhile (· != 13) = value := by
    rw [List.takeWhile_append_of_pos valueOk]
    simp
  have dropValue : (value ++ 13 :: 10 :: more).dropWhile (· != 13) = 13 :: 10 :: more := by
    rw [List.dropWhile_append_of_pos valueOk]
    simp
  rw [readHeaderLines, if_neg (by simp)]
  simp only [takeName]
  split
  · next hEnd => rw [dropName] at hEnd; cases hEnd
  · next b afterColon hEnd =>
    rw [dropName] at hEnd
    obtain ⟨rfl, rfl⟩ := List.cons.inj hEnd
    simp only [bne_self_eq_false, Bool.false_eq_true, if_false]
    rw [if_neg (by simpa using named)]
    simp only [dropBlanks, takeValue]
    split
    · next hEnd' => rw [dropBlanks, dropValue] at hEnd'; cases hEnd'
    · next cr afterCr hEnd' =>
      rw [dropBlanks, dropValue] at hEnd'
      obtain ⟨rfl, rfl⟩ := List.cons.inj hEnd'
      simp only [bne_self_eq_false, Bool.false_eq_true, if_false]
      have skipped : offset + name.length + 1 + ((blanks ++ value ++ 13 :: 10 :: more).length -
          (value ++ 13 :: 10 :: more).length) + value.length + 2 =
          offset + name.length + blanks.length + value.length + 3 := by
        simp only [List.length_append, List.length_cons]
        omega
      rw [skipped]
      rfl

namespace CookieScan

theorem run_append_of_inToken {s : CookieScan} (inside : s.inToken = true) {tok : List UInt8}
    (plain : ∀ b ∈ tok, b ≠ 32 ∧ b ≠ 61 ∧ b ≠ 59) (j : Nat) (rest : List UInt8) :
    s.run j (tok ++ rest) = s.run (j + tok.length) rest := by
  induction tok generalizing j with
  | nil => rfl
  | cons b tok ih =>
    have kept : s.step j b = s := by
      obtain ⟨space, equals, semicolon⟩ := plain b List.mem_cons_self
      simp [step, space, equals, semicolon, inside]
    rw [List.cons_append, run, kept, ih (fun x mem => plain x (List.mem_cons_of_mem b mem)),
      List.length_cons, Nat.add_assoc, Nat.add_comm 1]

theorem run_token {s : CookieScan} (outside : s.inToken = false) {b : UInt8} {tok : List UInt8}
    (plain : ∀ x ∈ b :: tok, x ≠ 32 ∧ x ≠ 61 ∧ x ≠ 59) (j : Nat) (rest : List UInt8) :
    s.run j (b :: tok ++ rest) = { s with start := j, inToken := true }.run (j + 1 + tok.length) rest := by
  have opened : s.step j b = { s with start := j, inToken := true } := by
    obtain ⟨space, equals, semicolon⟩ := plain b List.mem_cons_self
    simp [step, space, equals, semicolon, outside]
  rw [List.cons_append, run, opened, run_append_of_inToken rfl (fun x mem => plain x (List.mem_cons_of_mem b mem))]

theorem step_equals {s : CookieScan} (inside : s.inToken = true) (naming : s.expectName = true) (j : Nat) :
    s.step j 61 = { s with name := (s.start, j), inToken := false, expectName := false } := by
  simp [step, close, inside, naming]

theorem finish_value {s : CookieScan} (inside : s.inToken = true) (valuing : s.expectName = false)
    (named : s.name.1 < s.name.2) {len : Nat} (valued : s.start < len) :
    s.finish len = { s with value := (s.start, len), pairs := s.pairs ++ [(s.name, (s.start, len))] } := by
  simp [finish, close, inside, valuing, nonEmpty, named, valued]

end CookieScan

/-- A cookie value holding one pair, both parts non-empty and neither holding a blank, `=` or `;`,
is read as that pair. -/
theorem scanCookies_pair {name value : List UInt8} (named : name ≠ []) (valued : value ≠ [])
    (plain : ∀ b ∈ name ++ value, b ≠ 32 ∧ b ≠ 61 ∧ b ≠ 59) :
    scanCookies (name ++ 61 :: value) = [(Utf8.lenient name, Utf8.lenient value)] := by
  obtain ⟨b, ns, rfl⟩ := List.exists_cons_of_ne_nil named
  obtain ⟨c, vs, rfl⟩ := List.exists_cons_of_ne_nil valued
  have plainName : ∀ x ∈ b :: ns, x ≠ 32 ∧ x ≠ 61 ∧ x ≠ 59 := fun x mem => plain x (List.mem_append_left _ mem)
  have plainValue : ∀ x ∈ c :: vs, x ≠ 32 ∧ x ≠ 61 ∧ x ≠ 59 := fun x mem => plain x (List.mem_append_right _ mem)
  rw [← List.append_nil (c :: vs)]
  unfold scanCookies
  rw [CookieScan.run_token rfl plainName, CookieScan.run,
    CookieScan.step_equals rfl rfl, CookieScan.run_token rfl plainValue, CookieScan.run,
    CookieScan.finish_value rfl rfl (by simp) (by simp; omega)]
  have nameSlice : (b :: (ns ++ 61 :: c :: vs)).take (1 + ns.length) = b :: ns := by
    rw [Nat.add_comm, List.take_succ_cons, List.take_left]
  have valueSlice : ((ns ++ 61 :: c :: vs).drop (1 + ns.length)).take
      (ns.length + (vs.length + 1 + 1) - (1 + ns.length)) = c :: vs := by
    have drop : (ns ++ 61 :: c :: vs).drop (1 + ns.length) = c :: vs := by
      rw [Nat.add_comm 1, List.drop_append]
      simp
    have count : ns.length + (vs.length + 1 + 1) - (1 + ns.length) = (c :: vs).length := by
      simp only [List.length_cons]
      omega
    rw [drop, count, List.take_length]
  simp [slice, nameSlice, valueSlice]

theorem takeUntil_of_drop {block field post : List UInt8} {i : Nat} {d : UInt8} (absent : d ∉ field)
    (here : block.drop i = field ++ d :: post) :
    takeUntil block i d = .ok (Utf8.lenient field, i + field.length + 1) := by
  have within : ¬ i > block.length := by
    intro past
    rw [List.drop_eq_nil_of_le (by omega)] at here
    simp at here
  have before : field.findIdx? (· == d) = none := by
    rw [List.findIdx?_eq_none_iff]
    intro x mem
    have : x ≠ d := fun h => absent (h ▸ mem)
    simpa using this
  unfold takeUntil
  rw [if_neg within]
  simp only [here, List.findIdx?_append, before, List.findIdx?_cons, beq_self_eq_true, if_true]
  simp

theorem drop_past {pre rest : List UInt8} (b : UInt8) : (pre ++ b :: rest).drop (pre.length + 1) = rest := by
  have split : pre ++ b :: rest = (pre ++ [b]) ++ rest := by simp
  rw [split, List.drop_left' (by simp)]

/-- A start line of three fields, the first two ended by a space and the third by CR LF. -/
theorem parseStartLine_append {first second third : List UInt8} (rest : List UInt8) (h1 : 32 ∉ first)
    (h2 : 32 ∉ second) (h3 : 13 ∉ third) :
    parseStartLine (first ++ 32 :: (second ++ 32 :: (third ++ 13 :: 10 :: rest))) =
      .ok ⟨Utf8.lenient first, Utf8.lenient second, Utf8.lenient third,
        first.length + second.length + third.length + 4⟩ := by
  have d2 : (first ++ 32 :: (second ++ 32 :: (third ++ 13 :: 10 :: rest))).drop (first.length + 1) =
      second ++ 32 :: (third ++ 13 :: 10 :: rest) := drop_past 32
  have d3 : (first ++ 32 :: (second ++ 32 :: (third ++ 13 :: 10 :: rest))).drop
      (first.length + 1 + second.length + 1) = third ++ 13 :: 10 :: rest := by
    rw [Nat.add_assoc _ second.length, ← List.drop_drop, d2, drop_past]
  have d4 : (first ++ 32 :: (second ++ 32 :: (third ++ 13 :: 10 :: rest))).drop
      (first.length + 1 + second.length + 1 + third.length + 1) = 10 :: rest := by
    rw [Nat.add_assoc _ third.length, ← List.drop_drop, d3, drop_past]
  have t1 : takeUntil (first ++ 32 :: (second ++ 32 :: (third ++ 13 :: 10 :: rest))) 0 32 =
      .ok (Utf8.lenient first, first.length + 1) := by
    simpa using takeUntil_of_drop (i := 0) h1 rfl
  have t2 := takeUntil_of_drop h2 d2
  have t3 := takeUntil_of_drop h3 d3
  have lf : expectByte (first ++ 32 :: (second ++ 32 :: (third ++ 13 :: 10 :: rest)))
      (first.length + 1 + second.length + 1 + third.length + 1) 10 =
      .ok (first.length + second.length + third.length + 4) := by
    rw [expectByte, ← List.head?_drop, d4, List.head?_cons, if_pos rfl]
    congr 1
    omega
  simp only [parseStartLine, t1, bind, Except.bind, t2, t3, lf, pure, Except.pure]

def crlfLines (lines : List (List UInt8)) : List UInt8 := lines.flatMap (· ++ [13, 10])

@[simp] theorem crlfLines_nil : crlfLines [] = [] := rfl

@[simp] theorem crlfLines_cons (line : List UInt8) (lines : List (List UInt8)) :
    crlfLines (line :: lines) = line ++ 13 :: 10 :: crlfLines lines := by
  simp [crlfLines]

@[simp] theorem crlfLines_append (lines more : List (List UInt8)) :
    crlfLines (lines ++ more) = crlfLines lines ++ crlfLines more := by
  simp [crlfLines]

theorem startsWithTerminator_of_ne {b : UInt8} (other : b ≠ 13) (l : List UInt8) :
    startsWithTerminator (b :: l) = false := by
  unfold startsWithTerminator
  split <;> simp_all

theorem findTerminator_go_append {xs : List UInt8} (noCr : 13 ∉ xs) (i : Nat) (rest : List UInt8) :
    findTerminator.go i (xs ++ rest) = findTerminator.go (i + xs.length) rest := by
  induction xs generalizing i with
  | nil => rfl
  | cons x xs ih =>
    have other : x ≠ 13 := fun h => noCr (h ▸ List.mem_cons_self)
    rw [List.cons_append, findTerminator.go, startsWithTerminator_of_ne other, if_neg Bool.false_ne_true,
      ih (fun h => noCr (List.mem_cons_of_mem x h)), List.length_cons, Nat.add_assoc, Nat.add_comm 1]

/-- Lines without CR, all but the first non-empty: the first terminator is where the CR LF of the
last line meets the CR LF after it. -/
theorem findTerminator_go_lines {first : List UInt8} {lines : List (List UInt8)} (noCr : 13 ∉ first)
    (each : ∀ line ∈ lines, line ≠ [] ∧ 13 ∉ line) (i : Nat) (rest : List UInt8) :
    findTerminator.go i (first ++ 13 :: 10 :: (crlfLines lines ++ 13 :: 10 :: rest)) =
      some (i + first.length + (crlfLines lines).length) := by
  induction lines generalizing first i with
  | nil =>
    rw [findTerminator_go_append noCr, crlfLines_nil, List.nil_append, findTerminator.go]
    simp [startsWithTerminator]
  | cons line lines ih =>
    obtain ⟨nonempty, lineNoCr⟩ := each line List.mem_cons_self
    obtain ⟨b, bs, split⟩ := List.exists_cons_of_ne_nil nonempty
    have other : b ≠ 13 := fun h => lineNoCr (split ▸ h ▸ List.mem_cons_self)
    have notHere : startsWithTerminator
        (13 :: 10 :: (line ++ 13 :: 10 :: (crlfLines lines ++ 13 :: 10 :: rest))) = false := by
      rw [split]
      simp [startsWithTerminator, other]
    rw [findTerminator_go_append noCr, crlfLines_cons, List.append_assoc, List.cons_append, List.cons_append,
      findTerminator.go, notHere, if_neg Bool.false_ne_true, findTerminator.go,
      startsWithTerminator_of_ne (by decide), if_neg Bool.false_ne_true,
      ih lineNoCr (fun l mem => each l (List.mem_cons_of_mem _ mem))]
    simp only [List.length_append, List.length_cons, Option.some.injEq]
    omega

theorem le_foldl_decimal (bytes : List UInt8) (acc : Nat) :
    acc ≤ bytes.foldl (fun a b => a * 10 + (b.toNat - 48)) acc := by
  induction bytes generalizing acc with
  | nil => exact Nat.le_refl acc
  | cons b bs ih =>
    have grows : acc ≤ acc * 10 + (b.toNat - 48) := by omega
    exact Nat.le_trans grows (ih _)

theorem foldlM_decimal {ε : Type} {f : Nat → UInt8 → Except ε Nat} {bytes : List UInt8}
    (step : ∀ a, ∀ b ∈ bytes, a * 10 + (b.toNat - 48) ≤ wordMax → f a b = .ok (a * 10 + (b.toNat - 48)))
    (acc : Nat) (fits : bytes.foldl (fun a b => a * 10 + (b.toNat - 48)) acc ≤ wordMax) :
    bytes.foldlM f acc = .ok (bytes.foldl (fun a b => a * 10 + (b.toNat - 48)) acc) := by
  induction bytes generalizing acc with
  | nil => rfl
  | cons b bs ih =>
    have first := Nat.le_trans (le_foldl_decimal bs _) fits
    rw [List.foldlM_cons, step acc b List.mem_cons_self first]
    exact ih (fun a x mem => step a x (List.mem_cons_of_mem b mem)) _ fits

/-- The decimal text of a length that fits in a word declares that length. -/
theorem parseContentLength_toString {n : Nat} (fits : n ≤ wordMax) :
    parseContentLength (utf8 (toString n)) = .ok n := by
  have digits : ∀ c ∈ Nat.toDigits 10 n, 48 ≤ c.toNat ∧ c.toNat ≤ 57 := by
    intro c mem
    have digit := Nat.isDigit_of_mem_toDigits (by decide) (by decide) mem
    simp only [Char.isDigit, Bool.and_eq_true, decide_eq_true_eq] at digit
    exact ⟨digit.1, digit.2⟩
  have bytes : utf8 (toString n) = (Nat.toDigits 10 n).map fun c => UInt8.ofNat c.toNat := by
    rw [utf8_eq_map, Nat.toString_eq_repr, Nat.toList_repr]
    intro c mem
    rw [Nat.toString_eq_repr, Nat.toList_repr] at mem
    have := digits c mem
    omega
  have value : ((Nat.toDigits 10 n).map fun c => UInt8.ofNat c.toNat).foldl
      (fun a b => a * 10 + (b.toNat - 48)) 0 = n := by
    conv_rhs => rw [← Nat.ofDigitChars_ten_toDigits (n := n)]
    rw [List.foldl_map, Nat.ofDigitChars_eq_foldl]
    apply List.foldl_ext
    intro a c mem
    have := digits c mem
    have byte : (UInt8.ofNat c.toNat).toNat = c.toNat := by simp; omega
    show a * 10 + ((UInt8.ofNat c.toNat).toNat - 48) = 10 * a + (c.toNat - 48)
    omega
  rw [parseContentLength, bytes, if_neg (by simp [Nat.toDigits_ne_nil]), foldlM_decimal _ 0 (by rw [value]; exact fits), value]
  intro a b mem bound
  obtain ⟨c, cmem, rfl⟩ := List.mem_map.1 mem
  have := digits c cmem
  have byte : (UInt8.ofNat c.toNat).toNat = c.toNat := by simp; omega
  have mul : a * 10 ≤ wordMax := by omega
  have add : a * 10 + (c.toNat - 48) ≤ wordMax := by omega
  simp [Ascii.isDigit, UInt8.le_iff_toNat_le, byte, mulWord?, addWord?, this, mul, add]

end Switchboard.Http
