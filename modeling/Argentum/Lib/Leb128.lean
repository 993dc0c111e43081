import Mathlib.Data.Nat.Bitwise
import Mathlib.Tactic.Ring

/-!
# LEB128

The little-endian base-128 encodings of DWARF: seven bits of the number a byte, the low
group first, bit 7 set on every byte but the last. `encodeU` is the unsigned form, which
stops once the rest of the number is zero. `encodeS` is the signed form, which stops once
the rest is the sign extension of the last byte's bit 6, so that a decoder recovers a
negative number by extending that bit.

`encodeU_length_le` and `encodeS_length_le` bound the number of bytes by the width of the
number; `encodeS_bounds` says conversely that `n` bytes hold a signed `7n`-bit number. The
byte lemmas read the continuation bit, the payload and the sign bit of an encoded byte, and
`or_shiftLeft_mod` is what OR-ing a group into a fixed-width accumulator does to the number
it holds.
-/

namespace Leb128

/-- The unsigned LEB128 encoding of `v`. -/
def encodeU (v : Nat) : List UInt8 :=
  if v < 128 then [UInt8.ofNat v] else UInt8.ofNat (v % 128 + 128) :: encodeU (v / 128)
termination_by v
decreasing_by omega

/-- The signed LEB128 encoding of `v`: a number in `[-64, 64)` is one byte whose bit 6 is its
sign; a larger one puts its low seven bits in front of the encoding of the rest. -/
def encodeS (v : Int) : List UInt8 :=
  if -64 ≤ v ∧ v < 64 then [UInt8.ofNat (v % 128).toNat]
  else UInt8.ofNat ((v % 128).toNat + 128) :: encodeS (v / 128)
termination_by v.natAbs
decreasing_by omega

example : encodeU 624485 = [0xE5, 0x8E, 0x26] := by decide +kernel

example : encodeS (-123456) = [0xC0, 0xBB, 0x78] := by decide +kernel

theorem encodeU_of_lt {v : Nat} (h : v < 128) : encodeU v = [UInt8.ofNat v] := by
  rw [encodeU, if_pos h]

theorem encodeU_of_le {v : Nat} (h : 128 ≤ v) :
    encodeU v = UInt8.ofNat (v % 128 + 128) :: encodeU (v / 128) := by
  rw [encodeU, if_neg (Nat.not_lt.2 h)]

theorem encodeS_of_mem {v : Int} (h : -64 ≤ v ∧ v < 64) :
    encodeS v = [UInt8.ofNat (v % 128).toNat] := by
  rw [encodeS, if_pos h]

theorem encodeS_of_not_mem {v : Int} (h : ¬ (-64 ≤ v ∧ v < 64)) :
    encodeS v = UInt8.ofNat ((v % 128).toNat + 128) :: encodeS (v / 128) := by
  rw [encodeS, if_neg h]

/-- A number below `2 ^ (7 (k + 1))` takes at most `k + 1` bytes. -/
theorem encodeU_length_le (k : Nat) : ∀ v, v < 2 ^ (7 * (k + 1)) → (encodeU v).length ≤ k + 1 := by
  induction k with
  | zero =>
    intro v hv
    rw [encodeU_of_lt (by simpa using hv)]
    simp
  | succ k ih =>
    intro v hv
    by_cases hlt : v < 128
    · rw [encodeU_of_lt hlt]
      simp
    · rw [encodeU_of_le (Nat.le_of_not_lt hlt), List.length_cons]
      have hpow : 2 ^ (7 * (k + 1 + 1)) = 2 ^ (7 * (k + 1)) * 128 := by
        rw [show 7 * (k + 1 + 1) = 7 * (k + 1) + 7 by omega, Nat.pow_add]
      have := ih (v / 128) (by rw [Nat.div_lt_iff_lt_mul (by decide)]; omega)
      omega

/-- A number in `[-2 ^ (7k + 6), 2 ^ (7k + 6))` takes at most `k + 1` bytes. -/
theorem encodeS_length_le (k : Nat) :
    ∀ v : Int, -2 ^ (7 * k + 6) ≤ v → v < 2 ^ (7 * k + 6) → (encodeS v).length ≤ k + 1 := by
  induction k with
  | zero =>
    intro v hlo hhi
    rw [encodeS_of_mem ⟨by simpa using hlo, by simpa using hhi⟩]
    simp
  | succ k ih =>
    intro v hlo hhi
    by_cases hmem : -64 ≤ v ∧ v < 64
    · rw [encodeS_of_mem hmem]
      simp
    · rw [encodeS_of_not_mem hmem, List.length_cons]
      have hpow : (2 : Int) ^ (7 * (k + 1) + 6) = 2 ^ (7 * k + 6) * 128 := by
        rw [show 7 * (k + 1) + 6 = 7 * k + 6 + 7 by omega, pow_add]
        norm_num
      have := ih (v / 128) (by omega) (by omega)
      omega

theorem encodeS_ne_nil (v : Int) : encodeS v ≠ [] := by
  rw [encodeS]
  split <;> simp

/-- An encoding of `n` bytes holds a signed `7n`-bit number. -/
theorem encodeS_bounds (v : Int) :
    -2 ^ (7 * (encodeS v).length - 1) ≤ v ∧ v < 2 ^ (7 * (encodeS v).length - 1) := by
  induction v using encodeS.induct with
  | case1 v hmem =>
    rw [encodeS_of_mem hmem]
    simp only [List.length_singleton]
    omega
  | case2 v hmem ih =>
    rw [encodeS_of_not_mem hmem, List.length_cons]
    have hpos : 0 < (encodeS (v / 128)).length := List.length_pos_iff.2 (encodeS_ne_nil _)
    generalize (encodeS (v / 128)).length = n at hpos ih
    have hpow : (2 : Int) ^ (7 * (n + 1) - 1) = 2 ^ (7 * n - 1) * 128 := by
      rw [show 7 * (n + 1) - 1 = 7 * n - 1 + 7 by omega, pow_add]
      norm_num
    omega

/-! ## Bytes -/

theorem ofNat_and_0x80_eq_zero {n : Nat} (h : n < 256) : UInt8.ofNat n &&& 0x80 = 0 ↔ n < 128 :=
  (by decide +kernel : ∀ i : Fin 256, UInt8.ofNat i &&& 0x80 = 0 ↔ i.val < 128) ⟨n, h⟩

theorem toNat_ofNat_and_0x7F {n : Nat} (h : n < 256) :
    (UInt8.ofNat n &&& 0x7F).toNat = n % 128 :=
  (by decide +kernel : ∀ i : Fin 256, (UInt8.ofNat i &&& 0x7F).toNat = i.val % 128) ⟨n, h⟩

theorem ofNat_and_0x40_ne_zero {n : Nat} (h : n < 256) :
    UInt8.ofNat n &&& 0x40 ≠ 0 ↔ 64 ≤ n % 128 :=
  (by decide +kernel : ∀ i : Fin 256, UInt8.ofNat i &&& 0x40 ≠ 0 ↔ 64 ≤ i.val % 128) ⟨n, h⟩

/-! ## Accumulating groups -/

/-- OR-ing a group in above the bits of `a` adds it, also in a `w`-bit accumulator that
loses what is shifted past its top. -/
theorem or_shiftLeft_mod {a s : Nat} (ha : a < 2 ^ s) (g w : Nat) :
    a % 2 ^ w ||| (g <<< s) % 2 ^ w = (a + g * 2 ^ s) % 2 ^ w := by
  rw [← Nat.or_mod_two_pow, Nat.or_comm, ← Nat.shiftLeft_add_eq_or_of_lt ha, Nat.shiftLeft_eq,
    Nat.add_comm]

/-- OR-ing the ones from bit `k` to bit `w - 1` into a number below `2 ^ k` adds them. -/
theorem or_two_pow_sub {u k w : Nat} (hu : u < 2 ^ k) (hk : k ≤ w) :
    u ||| (2 ^ w - 2 ^ k) = u + (2 ^ w - 2 ^ k) := by
  have hones : 2 ^ w - 2 ^ k = (2 ^ (w - k) - 1) <<< k := by
    rw [Nat.shiftLeft_eq, Nat.sub_mul, Nat.one_mul, ← Nat.pow_add, Nat.sub_add_cancel hk]
  rw [hones, Nat.or_comm, ← Nat.shiftLeft_add_eq_or_of_lt hu, Nat.add_comm]

/-- The low `7 (n + 1)` bits of a number are its low group and, above it, the low `7n` bits
of the rest. -/
theorem emod_two_pow_succ (v : Int) (n : Nat) :
    (v % 2 ^ (7 * (n + 1))).toNat = (v % 128).toNat + 128 * (v / 128 % 2 ^ (7 * n)).toNat := by
  have hpow : (2 : Int) ^ (7 * (n + 1)) = 128 * 2 ^ (7 * n) := by
    rw [show 7 * (n + 1) = 7 + 7 * n by omega, pow_add]
    norm_num
  have hsplit : v % (128 * 2 ^ (7 * n)) = v % 128 + 128 * (v / 128 % 2 ^ (7 * n)) := by
    rw [Int.emod_def, Int.emod_def, Int.emod_def, Int.ediv_ediv_of_nonneg (by norm_num)]
    ring
  have hlo : 0 ≤ v / 128 % 2 ^ (7 * n) := Int.emod_nonneg _ (pow_ne_zero _ (by norm_num))
  rw [hpow, hsplit]
  omega

end Leb128
