import Mathlib.Tactic.NormNum.Basic
import Mathlib.Tactic.Ring

/-!
# Argentum.Lib.ByteOrder

The four bytes of a 32-bit word, as C code takes them apart and puts them together with masks,
shifts and `|`. `byte x k` is byte `k` of `x`, counted from the least significant; a word is
the sum of its bytes in their places (`toNat_eq_bytes`). Masking a byte out is taking it by
division and remainder (`and_byteMask`), and `|` of bytes in distinct places adds them
(`or_pack`): with these, a statement about byte swaps and packing is one about `/`, `%`, `*`
and `+` with constants, which `omega` decides.
-/

namespace ByteOrder

/-- Byte `k` of a 32-bit word, counted from the least significant. -/
def byte (x : BitVec 32) (k : Nat) : Nat := x.toNat / 2 ^ (8 * k) % 256

theorem byte_lt (x : BitVec 32) (k : Nat) : byte x k < 256 := Nat.mod_lt _ (by decide)

/-- A word is its four bytes in their places. -/
theorem toNat_eq_bytes (x : BitVec 32) :
    x.toNat = byte x 3 * 2 ^ 24 + byte x 2 * 2 ^ 16 + byte x 1 * 2 ^ 8 + byte x 0 := by
  have := x.isLt
  simp only [byte, Nat.reducePow, Nat.reduceMul] at this ⊢
  omega

/-- The bytes of a word that is four bytes in their places are those four. -/
theorem bytes_of_toNat {x : BitVec 32} {b0 b1 b2 b3 : Nat} (h1 : b1 < 256)
    (h2 : b2 < 256) (h3 : b3 < 256)
    (hx : x.toNat = b0 * 2 ^ 24 + b1 * 2 ^ 16 + b2 * 2 ^ 8 + b3) :
    byte x 3 = b0 ∧ byte x 2 = b1 ∧ byte x 1 = b2 ∧ byte x 0 = b3 := by
  simp only [byte, hx, Nat.reducePow, Nat.reduceMul]
  refine ⟨?_, ?_, ?_, ?_⟩ <;> omega

/-- A mask of the byte at bit `k` takes that byte out by division and remainder. -/
theorem and_byteMask (x k : Nat) : x &&& (2 ^ 8 - 1) * 2 ^ k = x / 2 ^ k % 2 ^ 8 * 2 ^ k := by
  apply Nat.eq_of_testBit_eq
  intro j
  rw [Nat.testBit_and, Nat.testBit_mul_two_pow, Nat.testBit_mul_two_pow,
    Nat.testBit_two_pow_sub_one, Nat.testBit_mod_two_pow, Nat.testBit_div_two_pow]
  by_cases hkj : k ≤ j
  · rw [Nat.sub_add_cancel hkj]
    simp [hkj, Bool.and_comm]
  · simp [hkj]

/-- Bytes in distinct places: `|` adds them. -/
theorem or_pack {b0 b1 b2 b3 : Nat} (h1 : b1 < 256) (h2 : b2 < 256) (h3 : b3 < 256) :
    b0 * 2 ^ 24 ||| b1 * 2 ^ 16 ||| b2 * 2 ^ 8 ||| b3 =
      b0 * 2 ^ 24 + b1 * 2 ^ 16 + b2 * 2 ^ 8 + b3 := by
  have h01 : b0 * 2 ^ 24 ||| b1 * 2 ^ 16 = b0 * 2 ^ 24 + b1 * 2 ^ 16 := by
    have := Nat.two_pow_add_eq_or_of_lt (i := 24) (b := b1 * 2 ^ 16) (by omega) b0
    rw [Nat.mul_comm (2 ^ 24) b0] at this
    exact this.symm
  have h012 : b0 * 2 ^ 24 + b1 * 2 ^ 16 ||| b2 * 2 ^ 8 =
      b0 * 2 ^ 24 + b1 * 2 ^ 16 + b2 * 2 ^ 8 := by
    have := Nat.two_pow_add_eq_or_of_lt (i := 16) (b := b2 * 2 ^ 8) (by omega) (b0 * 2 ^ 8 + b1)
    have hsplit : 2 ^ 16 * (b0 * 2 ^ 8 + b1) = b0 * 2 ^ 24 + b1 * 2 ^ 16 := by ring
    rw [hsplit] at this
    exact this.symm
  have h0123 : b0 * 2 ^ 24 + b1 * 2 ^ 16 + b2 * 2 ^ 8 ||| b3 =
      b0 * 2 ^ 24 + b1 * 2 ^ 16 + b2 * 2 ^ 8 + b3 := by
    have := Nat.two_pow_add_eq_or_of_lt (i := 8) (b := b3) (by omega)
      (b0 * 2 ^ 16 + b1 * 2 ^ 8 + b2)
    have hsplit : 2 ^ 8 * (b0 * 2 ^ 16 + b1 * 2 ^ 8 + b2) =
        b0 * 2 ^ 24 + b1 * 2 ^ 16 + b2 * 2 ^ 8 := by ring
    rw [hsplit] at this
    exact this.symm
  rw [h01, h012, h0123]

end ByteOrder
