import Mathlib

/-!
# Bytes as base-256 digits

An integer is cut into its low bytes, least significant first, and a list of bytes denotes a
natural number. Negative integers are cut by the floor division, which is two's complement: what
the low `n` bytes denote is the integer modulo `256 ^ n`.
-/

namespace JFlac.Lib

/-- A byte. -/
abbrev Byte := BitVec 8

/-- The number a list of bytes denotes, least significant byte first. -/
def leValue : List Byte → ℕ
  | [] => 0
  | b :: bs => b.toNat + 256 * leValue bs

/-- The low `n` bytes of an integer, least significant first. -/
def leDigits : ℕ → ℤ → List Byte
  | 0, _ => []
  | n + 1, x => BitVec.ofInt 8 x :: leDigits n (x / 256)

@[simp] theorem leValue_nil : leValue [] = 0 := rfl

@[simp] theorem leValue_cons (b : Byte) (bs : List Byte) :
    leValue (b :: bs) = b.toNat + 256 * leValue bs := rfl

@[simp] theorem length_leDigits (n : ℕ) (x : ℤ) : (leDigits n x).length = n := by
  induction n generalizing x with
  | zero => rfl
  | succ n ih => simp [leDigits, ih]

/-- The low bytes of an integer denote it modulo a power of 256. -/
theorem leValue_leDigits (n : ℕ) (x : ℤ) : (leValue (leDigits n x) : ℤ) = x % 256 ^ n := by
  induction n generalizing x with
  | zero => simp [leDigits]
  | succ n ih =>
    have hbyte : ((BitVec.ofInt 8 x).toNat : ℤ) = x % 256 := by
      rw [BitVec.toNat_ofInt]
      omega
    have hsplit : x % 256 ^ (n + 1) = x % 256 + 256 * (x / 256 % 256 ^ n) := by
      rw [pow_succ', Int.emod_def x (256 * _), ← Int.ediv_ediv_of_nonneg (by decide),
        Int.emod_def (x / 256), Int.emod_def x 256]
      ring
    rw [leDigits, leValue_cons, Nat.cast_add, Nat.cast_mul, ih, hbyte, hsplit]
    rfl

/-- The digits one by one: digit `i` is the low byte of the integer shifted down by `i` bytes. -/
theorem leDigits_eq_map_range (n : ℕ) (x : ℤ) :
    leDigits n x = (List.range n).map fun i => BitVec.ofInt 8 (x / 256 ^ i) := by
  induction n generalizing x with
  | zero => rfl
  | succ n ih =>
    rw [leDigits, ih, List.range_succ_eq_map, List.map_cons, List.map_map, pow_zero, Int.ediv_one]
    refine congrArg _ (List.map_congr_left fun i _ => ?_)
    show BitVec.ofInt 8 (x / 256 / 256 ^ i) = BitVec.ofInt 8 (x / 256 ^ (i + 1))
    rw [pow_succ', Int.ediv_ediv_of_nonneg (by decide)]

end JFlac.Lib
