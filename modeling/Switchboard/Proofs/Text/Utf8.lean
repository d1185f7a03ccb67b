import Mathlib
import Switchboard.Text.Ascii
import Switchboard.Text.Utf8
/-!
# Reading back UTF-8

The bytes of a text are the UTF-8 encodings of its characters, one after the other. Each
encoding is a well-formed sequence in the sense of RFC 3629: its lead byte and continuation bytes
fall within the ranges `Utf8.lead?` allows. Lenient decoding therefore reads the bytes of every text
back to that text (`Utf8.lenient_utf8`). An ASCII byte stands in the bytes of a text only as the
character it codes (`mem_utf8_iff`), since every byte of a longer sequence is at least 80.
-/
namespace Switchboard

theorem toList_loop_eq (bs : ByteArray) (i : Nat) (r : List UInt8) :
    ByteArray.toList.loop bs i r = r.reverse ++ bs.data.toList.drop i := by
  fun_induction ByteArray.toList.loop bs i r with
  | case1 i r lt ih =>
    have inside : i < bs.data.toList.length := by simpa using lt
    rw [ih, List.drop_eq_getElem_cons inside]
    simp [ByteArray.get!, lt]
  | case2 i r ge =>
    have past : bs.data.toList.length ≤ i := by simpa using ge
    simp [List.drop_eq_nil_of_le past]

theorem utf8_eq_flatMap (s : String) : utf8 s = s.toList.flatMap String.utf8EncodeChar := by
  conv => lhs; rw [← String.ofList_toList (s := s)]
  rw [utf8, String.toUTF8_eq_toByteArray, String.toByteArray_ofList, List.utf8Encode,
    ByteArray.toList, toList_loop_eq, List.toList_data_toByteArray]
  rfl

@[simp] theorem utf8_append (s t : String) : utf8 (s ++ t) = utf8 s ++ utf8 t := by
  simp [utf8_eq_flatMap, String.toList_append]

@[simp] theorem utf8_eq_nil_iff (s : String) : utf8 s = [] ↔ s = "" := by
  rw [utf8_eq_flatMap, List.flatMap_eq_nil_iff, ← String.toList_eq_nil_iff]
  cases s.toList with
  | nil => simp
  | cons c cs =>
    simp only [reduceCtorEq, iff_false, not_forall]
    exact ⟨c, List.mem_cons_self, String.utf8EncodeChar_ne_nil⟩

theorem utf8EncodeChar_of_lt {c : Char} (ascii : c.toNat < 0x80) :
    String.utf8EncodeChar c = [UInt8.ofNat c.toNat] := by
  have small : c.val.toNat ≤ 127 := by
    change c.toNat ≤ 127
    omega
  simp only [String.utf8EncodeChar, small, if_true]
  rfl

theorem utf8_eq_map {s : String} (ascii : ∀ c ∈ s.toList, c.toNat < 0x80) :
    utf8 s = s.toList.map fun c => UInt8.ofNat c.toNat := by
  rw [utf8_eq_flatMap]
  generalize s.toList = l at ascii ⊢
  induction l with
  | nil => rfl
  | cons c cs ih =>
    rw [List.flatMap_cons, utf8EncodeChar_of_lt (ascii c List.mem_cons_self),
      ih (fun d mem => ascii d (List.mem_cons_of_mem c mem))]
    rfl

theorem toNat_eq_of_mem_utf8EncodeChar {b : UInt8} {c : Char} (mem : b ∈ String.utf8EncodeChar c)
    (ascii : b.toNat < 0x80) : c.toNat = b.toNat := by
  have self : c.toNat = c.val.toNat := rfl
  have valid := c.valid
  simp only [UInt32.isValidChar, Nat.isValidChar] at valid
  unfold String.utf8EncodeChar at mem
  generalize c.val.toNat = v at *
  dsimp only at mem
  split_ifs at mem with one two three <;> simp only [List.mem_cons, List.not_mem_nil, or_false] at mem
  · subst mem
    simp at ascii ⊢
    omega
  all_goals
    rcases mem with rfl | rfl | rfl | rfl <;> simp at ascii <;> omega

/-- An ASCII byte occurs in the bytes of a text exactly where the text has the character it
codes. -/
theorem mem_utf8_iff {b : UInt8} (ascii : b.toNat < 0x80) (s : String) :
    b ∈ utf8 s ↔ Char.ofNat b.toNat ∈ s.toList := by
  rw [utf8_eq_flatMap, List.mem_flatMap]
  constructor
  · rintro ⟨c, mem, inside⟩
    have same := toNat_eq_of_mem_utf8EncodeChar inside ascii
    rwa [← same, Char.ofNat_toNat]
  · intro mem
    refine ⟨_, mem, ?_⟩
    have code : (Char.ofNat b.toNat).val.toNat = b.toNat := by
      rw [Char.ofNat, dif_pos (Or.inl (by omega))]
      simp
    unfold String.utf8EncodeChar
    simp only [code, show b.toNat ≤ 127 by omega, if_true, List.mem_singleton]
    simp

theorem not_mem_utf8 {s : String} {c : Char} {b : UInt8} (code : c.toNat = b.toNat)
    (ascii : b.toNat < 0x80) (absent : c ∉ s.toList) : b ∉ utf8 s := by
  rw [mem_utf8_iff ascii, ← code, Char.ofNat_toNat]
  exact absent

theorem head?_utf8 {s : String} {c : Char} {cs : List Char} (first : s.toList = c :: cs) :
    (utf8 s).head? = (String.utf8EncodeChar c).head? := by
  obtain ⟨b, bs, eq⟩ := List.exists_cons_of_ne_nil (String.utf8EncodeChar_ne_nil (c := c))
  rw [utf8_eq_flatMap, first, List.flatMap_cons, eq]
  rfl

theorem not_mem_head?_utf8 {s : String} {c : Char} {b : UInt8} (code : c.toNat = b.toNat)
    (ascii : b.toNat < 0x80) (other : s.toList.head? ≠ some c) : b ∉ (utf8 s).head? := by
  intro mem
  cases chars : s.toList with
  | nil => simp [utf8_eq_flatMap, chars] at mem
  | cons d ds =>
    rw [head?_utf8 chars] at mem
    have same := toNat_eq_of_mem_utf8EncodeChar (List.mem_of_mem_head? mem) ascii
    have first : d = c := by
      rw [← Char.ofNat_toNat d, ← Char.ofNat_toNat c, same, code]
    simp [chars, first] at other

namespace Utf8

theorem readTails_cons {n acc : Nat} {low high b : UInt8} (rest : List UInt8)
    (inside : low.toNat ≤ b.toNat ∧ b.toNat ≤ high.toNat) :
    readTails (n + 1) acc low high (b :: rest) =
      ((readTails n (acc * 64 + b.toNat % 64) 0x80 0xBF rest).1,
        ⟨(readTails n (acc * 64 + b.toNat % 64) 0x80 0xBF rest).2.1,
          Nat.le_succ_of_le (readTails n (acc * 64 + b.toNat % 64) 0x80 0xBF rest).2.2⟩) := by
  simp only [readTails, UInt8.le_iff_toNat_le]
  rw [if_pos inside]

theorem chars_cons_of_lt {b : UInt8} (ascii : b.toNat < 0x80) (rest : List UInt8) :
    chars (b :: rest) = Char.ofNat b.toNat :: chars rest := by
  rw [chars, if_pos (UInt8.lt_iff_toNat_lt.2 ascii)]

theorem chars_cons_of_lead {b : UInt8} {l : Lead} (high : 0x80 ≤ b.toNat) (lead : lead? b = some l)
    (rest : List UInt8) :
    chars (b :: rest) = (readTails l.tails l.bits l.low l.high rest).1.getD replacement ::
      chars (readTails l.tails l.bits l.low l.high rest).2.1 := by
  rw [chars, if_neg (by rw [UInt8.lt_iff_toNat_lt]; simpa using high)]
  simp only [lead]

theorem toNat_ofNat_byte {n : Nat} (small : n < 256) : (UInt8.ofNat n).toNat = n :=
  UInt8.toNat_ofNat_of_lt' small

theorem lead?_two {n : Nat} (low : 2 ≤ n) (small : n < 32) :
    lead? (UInt8.ofNat (n + 192)) = some ⟨1, 0x80, 0xBF, n⟩ := by
  interval_cases n <;> rfl

theorem lead?_three {n : Nat} (small : n < 16) :
    lead? (UInt8.ofNat (n + 224)) =
      some ⟨2, if n = 0 then 0xA0 else 0x80, if n = 13 then 0x9F else 0xBF, n⟩ := by
  interval_cases n <;> rfl

theorem lead?_four {n : Nat} (small : n < 5) :
    lead? (UInt8.ofNat (n + 240)) =
      some ⟨3, if n = 0 then 0x90 else 0x80, if n = 4 then 0x8F else 0xBF, n⟩ := by
  interval_cases n <;> rfl

theorem chars_utf8EncodeChar_append (c : Char) (rest : List UInt8) :
    chars (String.utf8EncodeChar c ++ rest) = c :: chars rest := by
  have valid := c.valid
  have self : Char.ofNat c.toNat = c := Char.ofNat_toNat c
  simp only [Char.toNat] at self
  simp only [UInt32.isValidChar, Nat.isValidChar] at valid
  generalize hv : c.val.toNat = v at *
  unfold String.utf8EncodeChar
  rw [hv]
  dsimp only
  split_ifs with one two three
  · have byte : (UInt8.ofNat v).toNat = v := toNat_ofNat_byte (by omega)
    rw [List.singleton_append, chars_cons_of_lt (by omega), byte, self]
  · -- two bytes: a lead byte C2 to DF and one continuation byte
    have top : v / 64 % 32 = v / 64 := by omega
    have b1 : (UInt8.ofNat (v / 64 + 192)).toNat = v / 64 + 192 := toNat_ofNat_byte (by omega)
    have b2 : (UInt8.ofNat (v % 64 + 128)).toNat = v % 64 + 128 := toNat_ofNat_byte (by omega)
    have code : v / 64 * 64 + (v % 64 + 128) % 64 = v := by omega
    simp only [top, List.cons_append, List.nil_append]
    rw [chars_cons_of_lead (by omega) (lead?_two (by omega) (by omega)),
      readTails_cons _ (by simp only [b2, UInt8.reduceToNat]; omega)]
    simp only [readTails, Option.getD_some, b2, code, self]
  · -- three bytes: E0 allows no overlong form, and ED no surrogate
    have top : v / 4096 % 16 = v / 4096 := by omega
    have b1 : (UInt8.ofNat (v / 4096 + 224)).toNat = v / 4096 + 224 := toNat_ofNat_byte (by omega)
    have b2 : (UInt8.ofNat (v / 64 % 64 + 128)).toNat = v / 64 % 64 + 128 := toNat_ofNat_byte (by omega)
    have b3 : (UInt8.ofNat (v % 64 + 128)).toNat = v % 64 + 128 := toNat_ofNat_byte (by omega)
    have second : (if v / 4096 = 0 then (0xA0 : UInt8) else 0x80).toNat ≤ v / 64 % 64 + 128 ∧
        v / 64 % 64 + 128 ≤ (if v / 4096 = 13 then (0x9F : UInt8) else 0xBF).toNat := by
      split_ifs <;> simp only [UInt8.reduceToNat] <;> omega
    have code : (v / 4096 * 64 + (v / 64 % 64 + 128) % 64) * 64 + (v % 64 + 128) % 64 = v := by omega
    simp only [top, List.cons_append, List.nil_append]
    rw [chars_cons_of_lead (by omega) (lead?_three (by omega)), readTails_cons _ (by rw [b2]; exact second),
      readTails_cons _ (by simp only [b3, UInt8.reduceToNat]; omega)]
    simp only [readTails, Option.getD_some, b2, b3, code, self]
  · -- four bytes: F0 allows no overlong form, and F4 nothing above U+10FFFF
    have top : v / 262144 % 8 = v / 262144 := by omega
    have b1 : (UInt8.ofNat (v / 262144 + 240)).toNat = v / 262144 + 240 := toNat_ofNat_byte (by omega)
    have b2 : (UInt8.ofNat (v / 4096 % 64 + 128)).toNat = v / 4096 % 64 + 128 := toNat_ofNat_byte (by omega)
    have b3 : (UInt8.ofNat (v / 64 % 64 + 128)).toNat = v / 64 % 64 + 128 := toNat_ofNat_byte (by omega)
    have b4 : (UInt8.ofNat (v % 64 + 128)).toNat = v % 64 + 128 := toNat_ofNat_byte (by omega)
    have second : (if v / 262144 = 0 then (0x90 : UInt8) else 0x80).toNat ≤ v / 4096 % 64 + 128 ∧
        v / 4096 % 64 + 128 ≤ (if v / 262144 = 4 then (0x8F : UInt8) else 0xBF).toNat := by
      split_ifs <;> simp only [UInt8.reduceToNat] <;> omega
    have code : ((v / 262144 * 64 + (v / 4096 % 64 + 128) % 64) * 64 + (v / 64 % 64 + 128) % 64) * 64 +
        (v % 64 + 128) % 64 = v := by omega
    simp only [top, List.cons_append, List.nil_append]
    rw [chars_cons_of_lead (by omega) (lead?_four (by omega)), readTails_cons _ (by rw [b2]; exact second),
      readTails_cons _ (by simp only [b3, UInt8.reduceToNat]; omega),
      readTails_cons _ (by simp only [b4, UInt8.reduceToNat]; omega)]
    simp only [readTails, Option.getD_some, b2, b3, b4, code, self]

theorem chars_utf8_append (s : String) (rest : List UInt8) :
    chars (utf8 s ++ rest) = s.toList ++ chars rest := by
  rw [utf8_eq_flatMap]
  induction s.toList with
  | nil => rfl
  | cons c cs ih => rw [List.flatMap_cons, List.append_assoc, chars_utf8EncodeChar_append, ih]; rfl

/-- Lenient decoding reads the bytes of a text back to the text. -/
@[simp] theorem lenient_utf8 (s : String) : lenient (utf8 s) = s := by
  have whole := chars_utf8_append s []
  rw [List.append_nil, chars, List.append_nil] at whole
  rw [lenient, whole, String.ofList_toList]

end Utf8

end Switchboard
