/-!
# Machine words

Sizes, positions and counters are unsigned 64-bit words. Arithmetic that would leave the word is
a fault of the operation that attempted it, never a wrap, so each such step returns an `Option`.
-/
namespace Switchboard

def wordMax : Nat := Nat.pow 2 64 - 1

def addWord? (a b : Nat) : Option Nat :=
  if a + b ≤ wordMax then some (a + b) else none

def mulWord? (a b : Nat) : Option Nat :=
  if a * b ≤ wordMax then some (a * b) else none

def bigEndian (n v : Nat) : List UInt8 := (List.range n).reverse.map fun i => (v / Nat.pow 256 i % 256).toUInt8

def readBigEndian (bs : List UInt8) : Nat := bs.foldl (fun acc b => acc * 256 + b.toNat) 0

theorem length_bigEndian (n v : Nat) : (bigEndian n v).length = n := by
  simp [bigEndian]

theorem bigEndian_succ (n v : Nat) :
    bigEndian (n + 1) v = (v / Nat.pow 256 n % 256).toUInt8 :: bigEndian n v := by
  simp [bigEndian, List.range_succ]

theorem foldl_readBigEndian (acc : Nat) (bs : List UInt8) :
    bs.foldl (fun acc b => acc * 256 + b.toNat) acc = acc * Nat.pow 256 bs.length + readBigEndian bs := by
  induction bs generalizing acc with
  | nil => simp [readBigEndian]
  | cons b bs ih =>
    have tail : readBigEndian (b :: bs) = b.toNat * Nat.pow 256 bs.length + readBigEndian bs := by
      rw [← Nat.zero_add b.toNat, ← Nat.zero_mul 256, ← ih]
      rfl
    have shift : (acc * 256 + b.toNat) * Nat.pow 256 bs.length =
        acc * Nat.pow 256 (bs.length + 1) + b.toNat * Nat.pow 256 bs.length := by
      have power : Nat.pow 256 (bs.length + 1) = Nat.pow 256 bs.length * 256 := rfl
      rw [Nat.add_mul, power, Nat.mul_assoc, Nat.mul_comm 256]
    rw [List.foldl_cons, ih, tail, shift, List.length_cons, Nat.add_assoc]

theorem readBigEndian_cons (b : UInt8) (bs : List UInt8) :
    readBigEndian (b :: bs) = b.toNat * Nat.pow 256 bs.length + readBigEndian bs := by
  rw [readBigEndian, List.foldl_cons, foldl_readBigEndian]
  simp

theorem readBigEndian_bigEndian (n v : Nat) : readBigEndian (bigEndian n v) = v % Nat.pow 256 n := by
  induction n with
  | zero => simp [bigEndian, readBigEndian, Nat.mod_one]
  | succ n ih =>
    rw [bigEndian_succ, readBigEndian_cons, length_bigEndian, ih]
    have digit : (v / Nat.pow 256 n % 256).toUInt8.toNat = v / Nat.pow 256 n % 256 := by
      simp
    rw [digit]
    simp only [Nat.pow_eq, Nat.mod_pow_succ, Nat.mul_comm (256 ^ n)]
    omega

theorem addWord?_eq_some {a b : Nat} (h : a + b ≤ wordMax) : addWord? a b = some (a + b) := by
  simp [addWord?, h]

end Switchboard

namespace Switchboard

def bytesLe : List UInt8 → List UInt8 → Bool
  | [], _ => true
  | _ :: _, [] => false
  | a :: as, b :: bs => a < b || (a == b && bytesLe as bs)

end Switchboard
