import Mathlib
import Switchboard.Proofs.Http.HeaderReading

/-!
# Declared body lengths

A `Content-Length` value declares a length exactly when it is ASCII digits whose value fits in a
word (`parseContentLength_eq_ok_iff`), and in a block of header lines the last such header
declares it (`content_length_is_read_exactly`).
-/
namespace Switchboard.Http

def decimalValue (digits : List UInt8) : Nat := Nat.ofDigits 10 (digits.reverse.map fun b => b.toNat - 48)

theorem decimalValue_eq_foldl (digits : List UInt8) :
    decimalValue digits = digits.foldl (fun a b => a * 10 + (b.toNat - 48)) 0 := by
  induction digits using List.reverseRecOn with
  | nil => rfl
  | append_singleton digits b ih =>
    rw [List.foldl_append, List.foldl_cons, List.foldl_nil, ← ih]
    simp only [decimalValue, List.reverse_append, List.reverse_cons, List.reverse_nil, List.nil_append,
      List.singleton_append, List.map_cons, Nat.ofDigits_cons]
    ring

def LengthText (value : List UInt8) : Prop :=
  value ≠ [] ∧ (∀ b ∈ value, Ascii.isDigit b = true) ∧ decimalValue value ≤ wordMax

instance : DecidablePred LengthText := fun _ => inferInstanceAs (Decidable (_ ∧ _ ∧ _))

section Digits

variable {f : Nat → UInt8 → Except HttpError Nat}

theorem foldlM_digits (step : ∀ a b v, f a b = .ok v → Ascii.isDigit b = true ∧ v = a * 10 + (b.toNat - 48) ∧
      v ≤ wordMax) {bytes : List UInt8} {acc n : Nat} (fits : acc ≤ wordMax) (read : bytes.foldlM f acc = .ok n) :
    (∀ b ∈ bytes, Ascii.isDigit b = true) ∧ n = bytes.foldl (fun a b => a * 10 + (b.toNat - 48)) acc ∧ n ≤ wordMax := by
  induction bytes generalizing acc with
  | nil =>
    cases read
    exact ⟨by simp, rfl, fits⟩
  | cons b bs ih =>
    rw [List.foldlM_cons] at read
    cases first : f acc b with
    | error e => rw [first] at read; cases read
    | ok v =>
      rw [first] at read
      obtain ⟨digit, rfl, bound⟩ := step acc b v first
      obtain ⟨digits, value, fits'⟩ := ih bound read
      exact ⟨by simpa [digit] using digits, value, fits'⟩

theorem foldlM_invalid (step : ∀ a b e, f a b = .error e → ∃ text, e = .invalidHeader text) {bytes : List UInt8}
    {acc : Nat} {e : HttpError} (failed : bytes.foldlM f acc = .error e) : ∃ text, e = .invalidHeader text := by
  induction bytes generalizing acc with
  | nil => cases failed
  | cons b bs ih =>
    rw [List.foldlM_cons] at failed
    cases first : f acc b with
    | error e' =>
      rw [first] at failed
      cases failed
      exact step acc b e first
    | ok v =>
      rw [first] at failed
      exact ih failed

end Digits

theorem checkedDigit_eq_some {a d v : Nat} :
    (mulWord? a 10 >>= fun m => addWord? m d) = some v ↔ v = a * 10 + d ∧ v ≤ wordMax := by
  unfold mulWord? addWord?
  by_cases mul : a * 10 ≤ wordMax
  · by_cases add : a * 10 + d ≤ wordMax
    · simp [mul, add, eq_comm]
      omega
    · simp [mul, add]
      omega
  · -- the product already leaves the word, and so does every sum after it
    simp [mul]
    omega

/-- A `Content-Length` value is read as a length exactly when it is one or more digits whose value
fits in a word, and then as that value. -/
theorem parseContentLength_eq_ok_iff (value : List UInt8) (n : Nat) :
    parseContentLength value = .ok n ↔
      value ≠ [] ∧ (∀ b ∈ value, Ascii.isDigit b = true) ∧ decimalValue value = n ∧ n ≤ wordMax := by
  unfold parseContentLength
  constructor
  · intro read
    split at read
    · cases read
    · next nonempty =>
      have digits : (∀ b ∈ value, Ascii.isDigit b = true) ∧
          n = value.foldl (fun a b => a * 10 + (b.toNat - 48)) 0 ∧ n ≤ wordMax := by
        refine foldlM_digits (fun a b v checked => ?_) (Nat.zero_le _) read
        split at checked
        · next digit =>
          split at checked
          · next v' stepped =>
            cases checked
            exact ⟨digit, checkedDigit_eq_some.1 stepped⟩
          · cases checked
        · cases checked
      obtain ⟨digits, rfl, fits⟩ := digits
      exact ⟨by simpa using nonempty, digits, decimalValue_eq_foldl value, fits⟩
  · rintro ⟨nonempty, digits, rfl, fits⟩
    rw [if_neg (by simpa using nonempty), decimalValue_eq_foldl]
    rw [decimalValue_eq_foldl] at fits
    refine foldlM_decimal (fun a b mem bound => ?_) 0 fits
    rw [if_pos (digits b mem), (checkedDigit_eq_some.2 ⟨rfl, bound⟩ : (mulWord? a 10 >>= _) = _)]

/-- A `Content-Length` value that is not read as a length is refused as an invalid header. -/
theorem parseContentLength_error {value : List UInt8} {e : HttpError} (failed : parseContentLength value = .error e) :
    ∃ text, e = .invalidHeader text := by
  unfold parseContentLength at failed
  split at failed
  · cases failed
    exact ⟨_, rfl⟩
  · refine foldlM_invalid (fun a b e checked => ?_) failed
    split at checked
    · split at checked
      · cases checked
      · cases checked
        exact ⟨_, rfl⟩
    · cases checked
      exact ⟨_, rfl⟩

theorem parseContentLength_refused {value : List UInt8} (invalid : ¬ LengthText value) :
    ∃ e, parseContentLength value = .error e := by
  cases read : parseContentLength value with
  | error e => exact ⟨e, rfl⟩
  | ok n =>
    obtain ⟨nonempty, digits, rfl, fits⟩ := (parseContentLength_eq_ok_iff value n).1 read
    exact absurd ⟨nonempty, digits, fits⟩ invalid

/-! ## Blocks of header lines -/

/-- A header line: its name, the blanks after its colon, and its value. -/
structure HeaderLine where
  name : List UInt8
  blanks : List UInt8
  value : List UInt8
  deriving Repr, DecidableEq

namespace HeaderLine

def bytes (l : HeaderLine) : List UInt8 := l.name ++ 58 :: l.blanks ++ l.value ++ [13, 10]

/-- A line that reads as written: a name that is not empty and holds no colon or CR, blanks that
are spaces or tabs, and a value that holds no CR and does not start with a blank. -/
def WellFormed (l : HeaderLine) : Prop :=
  l.name ≠ [] ∧ (58 ∉ l.name ∧ 13 ∉ l.name) ∧ (∀ b ∈ l.blanks, b = 32 ∨ b = 9) ∧
    (∀ b ∈ l.value.head?, b ≠ 32 ∧ b ≠ 9) ∧ 13 ∉ l.value

instance : DecidablePred WellFormed := fun _ => inferInstanceAs (Decidable (_ ∧ _ ∧ _ ∧ _ ∧ _))

def declaresLength (l : HeaderLine) : Bool := Ascii.eqFold (Utf8.lenient l.name) "Content-Length"

end HeaderLine

theorem readHeaderLines_headerLine {l : HeaderLine} (well : l.WellFormed) (cookieHeader : String) (offset : Nat)
    (more : List UInt8) (acc : HeaderScan) :
    readHeaderLines cookieHeader offset (l.bytes ++ more) acc =
      match acc.read cookieHeader (Utf8.lenient l.name) l.value with
      | .error e => (.error e, acc)
      | .ok acc' => readHeaderLines cookieHeader (offset + l.name.length + l.blanks.length + l.value.length + 3)
          more { acc' with headers := acc'.headers.insert (Utf8.lenient l.name) (Utf8.lenient l.value) } := by
  obtain ⟨named, nameEnds, blank, valueStarts, valueEnds⟩ := well
  rw [HeaderLine.bytes, List.append_assoc, List.cons_append, List.cons_append, List.nil_append]
  exact readHeaderLines_line more acc named nameEnds blank valueStarts valueEnds

theorem HeaderScan.read_error {acc : HeaderScan} {cookieHeader name : String} {value : List UInt8} {e : HttpError}
    (failed : acc.read cookieHeader name value = .error e) : ∃ text, e = .invalidHeader text := by
  unfold HeaderScan.read at failed
  split at failed
  · cases read : parseContentLength value with
    | error e' =>
      rw [read] at failed
      cases failed
      exact parseContentLength_error read
    | ok n => rw [read] at failed; cases failed
  · split at failed <;> cases failed

theorem HeaderScan.contentLength_of_read {acc acc' : HeaderScan} {cookieHeader : String} {l : HeaderLine}
    (read : acc.read cookieHeader (Utf8.lenient l.name) l.value = .ok acc') :
    acc'.contentLength = if l.declaresLength then some (decimalValue l.value) else acc.contentLength := by
  unfold HeaderScan.read at read
  split at read
  · next declares =>
    cases parsed : parseContentLength l.value with
    | error e => rw [parsed] at read; cases read
    | ok n =>
      rw [parsed] at read
      cases read
      obtain ⟨-, -, rfl, -⟩ := (parseContentLength_eq_ok_iff l.value n).1 parsed
      simp [HeaderLine.declaresLength, declares]
  · next other =>
    have kept : acc'.contentLength = acc.contentLength := by split at read <;> cases read <;> rfl
    simp [HeaderLine.declaresLength, other, kept]

theorem HeaderScan.read_ok (acc : HeaderScan) (cookieHeader : String) {l : HeaderLine}
    (valid : l.declaresLength = true → LengthText l.value) :
    ∃ acc', acc.read cookieHeader (Utf8.lenient l.name) l.value = .ok acc' := by
  unfold HeaderScan.read
  split
  · next declares =>
    obtain ⟨nonempty, digits, fits⟩ := valid declares
    rw [(parseContentLength_eq_ok_iff l.value _).2 ⟨nonempty, digits, rfl, fits⟩]
    exact ⟨_, rfl⟩
  · split <;> exact ⟨_, rfl⟩

theorem HeaderScan.read_refused (acc : HeaderScan) (cookieHeader : String) {l : HeaderLine}
    (declares : l.declaresLength = true) (invalid : ¬ LengthText l.value) :
    ∃ e, acc.read cookieHeader (Utf8.lenient l.name) l.value = .error e := by
  obtain ⟨e, parsed⟩ := parseContentLength_refused invalid
  refine ⟨e, ?_⟩
  rw [HeaderScan.read, if_pos (show Ascii.eqFold (Utf8.lenient l.name) "Content-Length" = true from declares), parsed]
  rfl

/-- Well-formed header lines whose length declarations are all valid read without failing, and the
length declared is that of the last line that declares one, or the one recorded before if none
does. The induction is on the lines, generalizing the offset and what was read before. -/
theorem readHeaderLines_declared {lines : List HeaderLine} (well : ∀ l ∈ lines, l.WellFormed)
    (valid : ∀ l ∈ lines, l.declaresLength = true → LengthText l.value) (cookieHeader : String) (offset : Nat)
    (acc : HeaderScan) :
    (readHeaderLines cookieHeader offset (lines.flatMap HeaderLine.bytes) acc).1.map (·.contentLength) =
      .ok (((lines.filter (·.declaresLength)).getLast?.map fun l => decimalValue l.value).or acc.contentLength) := by
  induction lines generalizing offset acc with
  | nil => rw [List.flatMap_nil, readHeaderLines_nil]; rfl
  | cons l rest ih =>
    rw [List.flatMap_cons, readHeaderLines_headerLine (well l List.mem_cons_self)]
    obtain ⟨acc', read⟩ := HeaderScan.read_ok acc cookieHeader (valid l List.mem_cons_self)
    rw [read]
    dsimp only
    rw [ih (fun l' mem => well l' (List.mem_cons_of_mem l mem)) (fun l' mem => valid l' (List.mem_cons_of_mem l mem))]
    have recorded := HeaderScan.contentLength_of_read read
    rw [recorded, List.filter_cons]
    by_cases declares : l.declaresLength = true
    · rw [if_pos declares, if_pos declares, List.getLast?_cons]
      cases (rest.filter (·.declaresLength)).getLast? <;> rfl
    · rw [if_neg declares, if_neg declares]

/-- Well-formed header lines of which one declares an invalid length fail as an invalid header. -/
theorem readHeaderLines_refused {lines : List HeaderLine} (well : ∀ l ∈ lines, l.WellFormed)
    (refused : ∃ l ∈ lines, l.declaresLength = true ∧ ¬ LengthText l.value) (cookieHeader : String) (offset : Nat)
    (acc : HeaderScan) :
    ∃ text, (readHeaderLines cookieHeader offset (lines.flatMap HeaderLine.bytes) acc).1 = .error (.invalidHeader text) := by
  induction lines generalizing offset acc with
  | nil => simp at refused
  | cons l rest ih =>
    rw [List.flatMap_cons, readHeaderLines_headerLine (well l List.mem_cons_self)]
    cases line : acc.read cookieHeader (Utf8.lenient l.name) l.value with
    | error e =>
      obtain ⟨text, rfl⟩ := HeaderScan.read_error line
      exact ⟨text, rfl⟩
    | ok acc' =>
      -- the line read, so the invalid declaration is a later one
      have later : ∃ l' ∈ rest, l'.declaresLength = true ∧ ¬ LengthText l'.value := by
        obtain ⟨l', mem, declares, invalid⟩ := refused
        rcases List.mem_cons.1 mem with rfl | inRest
        · obtain ⟨e, failed⟩ := HeaderScan.read_refused acc cookieHeader declares invalid
          rw [failed] at line
          cases line
        · exact ⟨l', inRest, declares, invalid⟩
      exact ih (fun l' mem => well l' (List.mem_cons_of_mem l mem)) later _ _

/-- A declared length is read exactly: a value parses to `n` when it is a nonempty run of digits
of decimal value `n` within the word, and fails as an invalid header otherwise. In a block of
well-formed header lines after any start, the last line that declares a length gives it when all
such lines are valid, and one invalid declaration fails the whole block. -/
theorem content_length_is_read_exactly :
    (∀ (value : List UInt8) (n : Nat), parseContentLength value = .ok n ↔
      value ≠ [] ∧ (∀ b ∈ value, Ascii.isDigit b = true) ∧ decimalValue value = n ∧ n ≤ wordMax) ∧
    (∀ (value : List UInt8) (e : HttpError), parseContentLength value = .error e →
      ∃ text, e = .invalidHeader text) ∧
    (∀ (start : List UInt8) (lines : List HeaderLine) (cookieHeader : String), (∀ l ∈ lines, l.WellFormed) →
      ((∀ l ∈ lines, l.declaresLength = true → LengthText l.value) →
        (parseHeaderLines (start ++ lines.flatMap HeaderLine.bytes) start.length cookieHeader).1 =
          .ok ((lines.filter (·.declaresLength)).getLast?.map fun l => decimalValue l.value)) ∧
      ((∃ l ∈ lines, l.declaresLength = true ∧ ¬ LengthText l.value) →
        ∃ text, (parseHeaderLines (start ++ lines.flatMap HeaderLine.bytes) start.length cookieHeader).1 =
          .error (.invalidHeader text))) := by
  refine ⟨parseContentLength_eq_ok_iff, fun _ _ failed => parseContentLength_error failed,
    fun start lines cookieHeader well => ⟨fun valid => ?_, fun refused => ?_⟩⟩
  · simp only [parseHeaderLines, List.drop_left]
    rw [readHeaderLines_declared well valid]
    cases (lines.filter (·.declaresLength)).getLast? <;> rfl
  · obtain ⟨text, failed⟩ := readHeaderLines_refused well refused cookieHeader start.length {}
    refine ⟨text, ?_⟩
    simp only [parseHeaderLines, List.drop_left, failed]
    rfl

/-- Two declarations, the later one with leading zeros, between other headers: the later one
counts. -/
theorem later_declared_length_counts :
    let lines : List HeaderLine :=
      [⟨"Content-Length".toUTF8.toList, [32], [53]⟩, ⟨"Host".toUTF8.toList, [32], [104]⟩,
        ⟨"content-length".toUTF8.toList, [32], [48, 48, 55]⟩]
    (∀ l ∈ lines, l.WellFormed) ∧ (∀ l ∈ lines, l.declaresLength = true → LengthText l.value) ∧
      (parseHeaderLines ([] ++ lines.flatMap HeaderLine.bytes) ([] : List UInt8).length "Cookie").1 = .ok (some 7) := by
  intro lines
  exact ⟨by decide +kernel, by decide +kernel,
    ((content_length_is_read_exactly.2.2 [] lines "Cookie" (by decide +kernel)).1 (by decide +kernel)).trans
      (congrArg Except.ok (by decide +kernel))⟩

end Switchboard.Http
