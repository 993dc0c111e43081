import Argentum.Lib.Leb128
import Mathlib.Algebra.Order.Ring.Int

/-!
# Argentum.Kernel.Kdebug

The readers of `kernel/kdebug.c` that decode the DWARF sections: `get_uhalf` and
`get_uword`, and the LEB128 decoders `get_uleb128` and `get_sleb128`.

A section is the list of its bytes and a pointer an offset into it; a reader returns its value
and `endptr`, and `none` where it would read past the section. Both decoders OR each group in
as `(byte & 0x7F) << shift`, an `int`: a group shifted past bit 31 loses its high bits (a
shift of 32 or more, which C leaves undefined, is taken to lose the group, as the ARM shift
by a register does).

`getUleb128Loop_encodeU` and `getSleb128Loop_encodeS` are the loop invariants: over the
encoding of `v`, entered with the bits of `a` below `shift`, a loop leaves the 32-bit
truncation of `a + v * 2 ^ shift`. From them, `leb128_decode_inverts_encode` says that each
decoder inverts its encoding for every 32-bit number.
-/

namespace Argentum.Kernel

/-- `get_uhalf(ptr, &endptr)`: a little-endian 16-bit value, maybe misaligned. -/
def getUhalf (mem : List UInt8) (ptr : Nat) : Option (UInt16 × Nat) := do
  let b0 ← mem[ptr]?
  let b1 ← mem[ptr + 1]?
  some (b0.toUInt16 ||| b1.toUInt16 <<< 8, ptr + 2)

/-- `get_uword(ptr, &endptr)`: a little-endian 32-bit value, maybe misaligned. -/
def getUword (mem : List UInt8) (ptr : Nat) : Option (UInt32 × Nat) := do
  let b0 ← mem[ptr]?
  let b1 ← mem[ptr + 1]?
  let b2 ← mem[ptr + 2]?
  let b3 ← mem[ptr + 3]?
  some (b0.toUInt32 ||| b1.toUInt32 <<< 8 ||| b2.toUInt32 <<< 16 ||| b3.toUInt32 <<< 24, ptr + 4)

/-- `result |= (byte & 0x7F) << shift`, in both decoders. -/
def orGroup (result : UInt32) (byte : UInt8) (shift : Nat) : UInt32 :=
  result ||| UInt32.ofNat ((byte &&& 0x7F).toNat <<< shift)

/-- The loop of `get_uleb128` over the bytes from `ptr` on: the value and the number of bytes
read. -/
def getUleb128Loop (result : UInt32) (shift : Nat) : List UInt8 → Option (UInt32 × Nat)
  | [] => none
  | byte :: bytes =>
    let result := orGroup result byte shift
    if byte &&& 0x80 = 0 then some (result, 1)
    else (getUleb128Loop result (shift + 7) bytes).map fun r => (r.1, r.2 + 1)

/-- `get_uleb128(ptr, &endptr)` at offset `ptr` of the section `mem`: the value and
`endptr`. -/
def getUleb128 (mem : List UInt8) (ptr : Nat) : Option (UInt32 × Nat) :=
  (getUleb128Loop 0 0 (mem.drop ptr)).map fun r => (r.1, ptr + r.2)

/-- Where the loop of `get_sleb128` stops: `result`, `shift` and the last `byte`, and the
number of bytes read. -/
structure Sleb128Stop where
  result : UInt32
  shift : Nat
  byte : UInt8
  read : Nat

/-- The loop of `get_sleb128`, which adds 7 to `shift` before it tests the byte. -/
def getSleb128Loop (result : UInt32) (shift : Nat) : List UInt8 → Option Sleb128Stop
  | [] => none
  | byte :: bytes =>
    let result := orGroup result byte shift
    if byte &&& 0x80 = 0 then some ⟨result, shift + 7, byte, 1⟩
    else (getSleb128Loop result (shift + 7) bytes).map fun s => { s with read := s.read + 1 }

/-- The end of `get_sleb128`: below 32 bits, bit 6 of the last byte is extended through the
high bits, `result |= -(1 << shift)`. -/
def slebSignExtend (s : Sleb128Stop) : UInt32 :=
  if s.shift < 32 ∧ s.byte &&& 0x40 ≠ 0 then s.result ||| -(1 <<< UInt32.ofNat s.shift)
  else s.result

/-- `get_sleb128(ptr, &endptr)`: the `int32_t` value and `endptr`. -/
def getSleb128 (mem : List UInt8) (ptr : Nat) : Option (Int × Nat) :=
  (getSleb128Loop 0 0 (mem.drop ptr)).map fun s => ((slebSignExtend s).toBitVec.toInt, ptr + s.read)

/-! ## Readers move on -/

theorem getUleb128Loop_pos : ∀ {result : UInt32} {shift : Nat} {bytes : List UInt8}
    {v : UInt32} {n : Nat}, getUleb128Loop result shift bytes = some (v, n) → 0 < n
  | _, _, [], _, _, h => by simp [getUleb128Loop] at h
  | result, shift, byte :: bytes, v, n, h => by
    rw [getUleb128Loop] at h
    split at h
    · cases h
      exact Nat.one_pos
    · obtain ⟨⟨v', n'⟩, -, h⟩ := Option.map_eq_some_iff.1 h
      cases h
      exact Nat.succ_pos n'

theorem getUleb128_lt {mem : List UInt8} {ptr ptr' : Nat} {v : UInt32}
    (h : getUleb128 mem ptr = some (v, ptr')) : ptr < ptr' := by
  obtain ⟨⟨v', n⟩, hloop, h⟩ := Option.map_eq_some_iff.1 h
  cases h
  have := getUleb128Loop_pos hloop
  omega

theorem getSleb128Loop_pos : ∀ {result : UInt32} {shift : Nat} {bytes : List UInt8}
    {s : Sleb128Stop}, getSleb128Loop result shift bytes = some s → 0 < s.read
  | _, _, [], _, h => by simp [getSleb128Loop] at h
  | result, shift, byte :: bytes, s, h => by
    rw [getSleb128Loop] at h
    split at h
    · cases h
      exact Nat.one_pos
    · obtain ⟨s', -, h⟩ := Option.map_eq_some_iff.1 h
      cases h
      exact Nat.succ_pos s'.read

theorem getSleb128_lt {mem : List UInt8} {ptr ptr' : Nat} {v : Int}
    (h : getSleb128 mem ptr = some (v, ptr')) : ptr < ptr' := by
  obtain ⟨s, hloop, h⟩ := Option.map_eq_some_iff.1 h
  cases h
  have := getSleb128Loop_pos hloop
  omega

theorem getUhalf_lt {mem : List UInt8} {ptr ptr' : Nat} {v : UInt16}
    (h : getUhalf mem ptr = some (v, ptr')) : ptr < ptr' := by
  simp only [getUhalf, Option.bind_eq_bind, Option.bind_eq_some_iff, Option.some.injEq,
    Prod.mk.injEq] at h
  obtain ⟨_, -, _, -, -, rfl⟩ := h
  omega

theorem getUword_lt {mem : List UInt8} {ptr ptr' : Nat} {v : UInt32}
    (h : getUword mem ptr = some (v, ptr')) : ptr < ptr' := by
  simp only [getUword, Option.bind_eq_bind, Option.bind_eq_some_iff, Option.some.injEq,
    Prod.mk.injEq] at h
  obtain ⟨_, -, _, -, _, -, _, -, -, rfl⟩ := h
  omega

/-! ## Loop invariants -/

open Leb128

/-- A group ORed in above the bits of `a` is added to them, modulo `2 ^ 32`. -/
theorem orGroup_toNat {result : UInt32} {a shift : Nat} (byte : UInt8) (ha : a < 2 ^ shift)
    (hres : result.toNat = a % 2 ^ 32) :
    (orGroup result byte shift).toNat = (a + (byte &&& 0x7F).toNat * 2 ^ shift) % 2 ^ 32 := by
  rw [orGroup, UInt32.toNat_or, UInt32.toNat_ofNat', hres, or_shiftLeft_mod ha]

/-- The accumulator after a group stays below the next shift. -/
theorem add_group_lt {a shift g : Nat} (ha : a < 2 ^ shift) (hg : g < 128) :
    a + g * 2 ^ shift < 2 ^ (shift + 7) := by
  have hmul : (g + 1) * 2 ^ shift ≤ 128 * 2 ^ shift := Nat.mul_le_mul_right _ hg
  rw [Nat.pow_add]
  simp only [Nat.add_mul, Nat.one_mul] at hmul
  omega

theorem getUleb128Loop_encodeU (rest : List UInt8) (v : Nat) :
    ∀ (result : UInt32) (shift a : Nat), a < 2 ^ shift → result.toNat = a % 2 ^ 32 →
      getUleb128Loop result shift (encodeU v ++ rest) =
        some (UInt32.ofNat (a + v * 2 ^ shift), (encodeU v).length) := by
  induction v using Nat.strong_induction_on with
  | _ v ih =>
  intro result shift a ha hres
  by_cases hlt : v < 128
  · -- one byte, without the continuation bit
    have hbyte := toNat_ofNat_and_0x7F (Nat.lt_trans hlt (by decide))
    rw [encodeU_of_lt hlt, List.singleton_append, getUleb128Loop,
      if_pos ((ofNat_and_0x80_eq_zero (by omega)).2 hlt)]
    congr 2
    apply UInt32.toNat_inj.1
    rw [orGroup_toNat _ ha hres, hbyte, Nat.mod_eq_of_lt hlt, UInt32.toNat_ofNat']
  · -- the low group, then the rest from `shift + 7`
    have hlow : v % 128 + 128 < 256 := by omega
    have hbyte := toNat_ofNat_and_0x7F hlow
    rw [Nat.add_mod_right, Nat.mod_mod] at hbyte
    have hacc := add_group_lt ha (Nat.mod_lt v (by decide : 0 < 128))
    rw [encodeU_of_le (Nat.le_of_not_lt hlt), List.cons_append, getUleb128Loop,
      if_neg (fun h => by have := (ofNat_and_0x80_eq_zero hlow).1 h; omega)]
    rw [ih (v / 128) (Nat.div_lt_self (by omega) (by decide)) _ (shift + 7) _ hacc
      (by rw [orGroup_toNat _ ha hres, hbyte])]
    simp only [Option.map_some, List.length_cons, Option.some.injEq, Prod.mk.injEq, and_true]
    congr 1
    have hv := Nat.div_add_mod v 128
    rw [Nat.pow_add]
    calc a + v % 128 * 2 ^ shift + v / 128 * (2 ^ shift * 2 ^ 7)
        = a + (128 * (v / 128) + v % 128) * 2 ^ shift := by ring
      _ = a + v * 2 ^ shift := by rw [hv]

theorem getSleb128Loop_encodeS (rest : List UInt8) (v : Int) :
    ∀ (result : UInt32) (shift a : Nat), a < 2 ^ shift → result.toNat = a % 2 ^ 32 →
      ∃ s : Sleb128Stop, getSleb128Loop result shift (encodeS v ++ rest) = some s ∧
        s.read = (encodeS v).length ∧ s.shift = shift + 7 * s.read ∧
        s.result = UInt32.ofNat (a + (v % 2 ^ (7 * s.read)).toNat * 2 ^ shift) ∧
        (s.byte &&& 0x40 ≠ 0 ↔ v < 0) := by
  induction v using encodeS.induct with
  | case1 v hmem =>
    -- one byte, whose bit 6 is the sign
    intro result shift a ha hres
    have hlow : (v % 128).toNat < 256 := by omega
    have hbyte := toNat_ofNat_and_0x7F hlow
    rw [Nat.mod_eq_of_lt (by omega : (v % 128).toNat < 128)] at hbyte
    rw [encodeS_of_mem hmem, List.singleton_append, getSleb128Loop,
      if_pos ((ofNat_and_0x80_eq_zero hlow).2 (by omega))]
    refine ⟨_, rfl, rfl, rfl, ?_, ?_⟩
    · apply UInt32.toNat_inj.1
      rw [orGroup_toNat _ ha hres, hbyte, UInt32.toNat_ofNat',
        show (2 : Int) ^ (7 * 1) = 128 by norm_num]
    · rw [ofNat_and_0x40_ne_zero hlow]
      omega
  | case2 v hmem ih =>
    intro result shift a ha hres
    have hlow : (v % 128).toNat + 128 < 256 := by omega
    have hbyte := toNat_ofNat_and_0x7F hlow
    rw [Nat.add_mod_right, Nat.mod_eq_of_lt (by omega : (v % 128).toNat < 128)] at hbyte
    have hacc := add_group_lt ha (by omega : (v % 128).toNat < 128)
    -- the low group, then the rest from `shift + 7`
    obtain ⟨s, hs, hread, hshift, hresult, hsign⟩ :=
      ih (orGroup result (UInt8.ofNat ((v % 128).toNat + 128)) shift) (shift + 7) _ hacc
        (by rw [orGroup_toNat _ ha hres, hbyte])
    rw [encodeS_of_not_mem hmem, List.cons_append, getSleb128Loop,
      if_neg (fun h => by have := (ofNat_and_0x80_eq_zero hlow).1 h; omega)]
    rw [hs]
    refine ⟨{ s with read := s.read + 1 }, rfl, by rw [hread, List.length_cons], ?_, ?_, ?_⟩
    · dsimp only
      rw [hshift]
      ring
    · dsimp only
      rw [hresult, emod_two_pow_succ]
      congr 1
      ring
    · exact hsign.trans (by omega)

/-! ## Sign extension -/

theorem toNat_neg_one_shiftLeft {k : Nat} (hk : k < 32) :
    (-(1 <<< UInt32.ofNat k)).toNat = 2 ^ 32 - 2 ^ k := by
  have hpow : 2 ^ k < 2 ^ 32 := Nat.pow_lt_pow_right (by decide) hk
  have hpos : 0 < 2 ^ k := Nat.two_pow_pos k
  rw [UInt32.toNat_neg, UInt32.toNat_shiftLeft, UInt32.toNat_one, UInt32.toNat_ofNat',
    Nat.mod_eq_of_lt (Nat.lt_trans hk (by decide)), Nat.mod_eq_of_lt hk, Nat.one_shiftLeft,
    Nat.mod_eq_of_lt hpow, UInt32.size, Nat.mod_eq_of_lt (by omega)]
  norm_num

/-- The end of `get_sleb128` turns the low `k` bits of a signed `k`-bit number, and the sign
in the last byte, into the number's 32 bits. -/
theorem slebSignExtend_toNat {s : Sleb128Stop} {v : Int} {k : Nat} (hshift : s.shift = k)
    (hres : s.result = UInt32.ofNat (v % 2 ^ k).toNat) (hsign : s.byte &&& 0x40 ≠ 0 ↔ v < 0)
    (hlo : -2 ^ (k - 1) ≤ v) (hhi : v < 2 ^ (k - 1)) :
    ((slebSignExtend s).toNat : Int) = v % 2 ^ 32 := by
  have hP : (0 : Int) < 2 ^ k := pow_pos (by norm_num) k
  have hhalf : (2 : Int) ^ (k - 1) ≤ 2 ^ k := pow_le_pow_right₀ (by norm_num) (Nat.sub_le k 1)
  have hcast : ((2 ^ k : Nat) : Int) = 2 ^ k := by push_cast; rfl
  have hu : ((v % 2 ^ k).toNat : Int) = v % 2 ^ k := Int.toNat_of_nonneg (Int.emod_nonneg v hP.ne')
  have hult : (v % 2 ^ k).toNat < 2 ^ k := by
    have := Int.emod_lt_of_pos v hP
    omega
  unfold slebSignExtend
  rw [hshift, hres]
  split_ifs with hext
  · -- a negative number below 32 bits: its bits from `k` up become ones
    obtain ⟨hk, hbit⟩ := hext
    have hneg := hsign.1 hbit
    have hmod : v % 2 ^ k = v + 2 ^ k := by
      rw [Int.emod_eq_add_self_emod, Int.emod_eq_of_lt (by omega) (by omega)]
    have hk32 : (2 : Int) ^ k ≤ 2 ^ 32 := pow_le_pow_right₀ (by norm_num) hk.le
    rw [UInt32.toNat_or, UInt32.toNat_ofNat', toNat_neg_one_shiftLeft hk,
      Nat.mod_eq_of_lt (by omega), or_two_pow_sub hult hk.le]
    push_cast
    omega
  · rw [UInt32.toNat_ofNat', Int.natCast_emod, hu]
    push_cast
    by_cases hk : 32 ≤ k
    · -- the loop kept at least the 32 bits that count
      exact Int.emod_emod_of_dvd v (pow_dvd_pow 2 hk)
    · -- a number below 32 bits that is not negative
      have hpos : 0 ≤ v := by
        by_contra hneg
        exact hext ⟨by omega, hsign.2 (by omega)⟩
      rw [Int.emod_eq_of_lt hpos (by omega : v < 2 ^ k)]

/-- The bits of an `int32_t` that hold `v` modulo `2 ^ 32` are `v`. -/
theorem toInt_of_toNat {x : UInt32} {v : Int} (h : (x.toNat : Int) = v % 2 ^ 32)
    (hlo : -2 ^ 31 ≤ v) (hhi : v < 2 ^ 31) : x.toBitVec.toInt = v := by
  rw [BitVec.toInt_eq_toNat_cond, UInt32.toNat_toBitVec]
  split <;> omega

/-! ## Decoding inverts encoding -/

theorem leb128_decode_inverts_encode (pre rest : List UInt8) :
    (∀ v : UInt32, (encodeU v.toNat).length ≤ 5 ∧
      getUleb128 (pre ++ encodeU v.toNat ++ rest) pre.length =
        some (v, pre.length + (encodeU v.toNat).length)) ∧
    (∀ v : Int32, (encodeS v.toInt).length ≤ 5 ∧
      getSleb128 (pre ++ encodeS v.toInt ++ rest) pre.length =
        some (v.toInt, pre.length + (encodeS v.toInt).length)) := by
  constructor
  · intro v
    refine ⟨encodeU_length_le 4 _ (Nat.lt_of_lt_of_le v.toNat_lt (by decide)), ?_⟩
    rw [getUleb128, List.append_assoc, List.drop_left,
      getUleb128Loop_encodeU rest _ 0 0 0 (by decide) rfl]
    simp
  · intro v
    have hlo := Int32.le_toInt v
    have hhi := Int32.toInt_lt v
    obtain ⟨s, hs, hread, hshift, hresult, hsign⟩ :=
      getSleb128Loop_encodeS rest v.toInt 0 0 0 (by decide) rfl
    have hbounds := encodeS_bounds v.toInt
    rw [← hread] at hbounds
    refine ⟨encodeS_length_le 4 _ (by omega) (by omega), ?_⟩
    rw [getSleb128, List.append_assoc, List.drop_left, hs, Option.map_some, hread]
    congr 2
    refine toInt_of_toNat (slebSignExtend_toNat (k := 7 * s.read) (by omega) ?_ hsign
      hbounds.1 hbounds.2) hlo hhi
    simpa using hresult

end Argentum.Kernel
