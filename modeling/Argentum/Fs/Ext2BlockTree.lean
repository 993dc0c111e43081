import Argentum.Fs.Ext2File

/-!
# Argentum.Fs.Ext2BlockTree

The tree of blocks of an ext2 file, as `ext2_inode_get_block` of `kernel/fs/ext2_inode.c` walks
it. Block `n` of a file is one of the twelve direct ids of its inode, or lies under one of three
indirect blocks: past the direct ones, the first `P` indices, with `P = block_size / 4` ids to a
block, are under the single indirect block, the next `P ^ 2` under the double one, and the next
`P ^ 3` under the triple one. The loop that finds the level keeps the size of a level,
`lvl_limit`, in a `uint32_t` and moves it on by `shift_per_lvl` bits each time.

A lookup, and so a write, leaves the attributes of the inode as they were and only adds to its
block count (`ext2InodeGetBlock_grows`, `ext2WriteLoop_grows`); `size` is for the callers to
set. For blocks of up to 4 KiB every index below `12 + P + P ^ 2 + P ^ 3` gets a level
(`ext2BlockLevel_lt_three`). From 8 KiB on, `P ^ 3` is at least `2 ^ 33`, and `lvl_limit` is 0 by
the time the loop reaches the triple level: no index from `12 + P + P ^ 2` on gets a level, and
`ext2_inode_get_block` returns 0 for all of them, with `alloc` or without
(`triple_indirect_unmapped`).
-/

namespace Argentum.Fs

/-! ## What a lookup leaves of the inode -/

theorem IdSlot.set_attr (F : Ext2Fs) (f : Ext2File) (id : Nat) (s : IdSlot) :
    (s.set F f id).2.attr = f.attr ∧ (s.set F f id).2.blocks = f.blocks := by
  cases s <;> exact ⟨rfl, rfl⟩

theorem blocksInc_pos (sb : Ext2SuperblockData) : 0 < blocksInc sb := by
  unfold blocksInc
  rw [Nat.shiftLeft_eq]
  exact Nat.mul_pos (by decide) (Nat.two_pow_pos _)

/-- A slot leaves the attributes of the inode and only adds to its block count; a block it
makes for an empty slot is counted. -/
theorem ext2SlotBlock_grows {euid : Nat} {alloc : Bool} {F F' : Ext2Fs} {f f' : Ext2File}
    {s : IdSlot} {id : Nat} (h : ext2SlotBlock euid alloc F f s = some (F', f', id)) :
    f'.attr = f.attr ∧ f.blocks ≤ f'.blocks ∧
      (s.get F f = 0 → id ≠ 0 → 0 < f'.blocks) := by
  unfold ext2SlotBlock at h
  split_ifs at h with hget
  · cases h
    exact ⟨rfl, Nat.le_refl _, fun h0 => absurd h0 hget⟩
  · cases h
    exact ⟨rfl, Nat.le_refl _, fun _ hid => absurd rfl hid⟩
  · obtain ⟨⟨F₁, x⟩, -, hx⟩ := Option.map_eq_some_iff.mp h
    cases x with
    | error e =>
      cases hx
      exact ⟨rfl, Nat.le_refl _, fun _ hid => absurd rfl hid⟩
    | ok id₁ =>
      -- the block goes into the slot and `blocks` counts it
      obtain ⟨hattr, hblocks⟩ := IdSlot.set_attr F₁ f id₁ s
      simp only [Prod.mk.injEq] at hx
      obtain ⟨rfl, rfl, rfl⟩ := hx
      have hpos := blocksInc_pos (s.set F₁ f id₁).1.sb
      exact ⟨hattr, by dsimp only; omega, fun _ _ => by dsimp only; omega⟩

/-- The chain of indirect blocks leaves the attributes of the inode and only adds to its block
count. -/
theorem ext2BlockChain_grows {euid : Nat} {alloc : Bool} {n shift lvl idxShift id id' : Nat}
    {F F' : Ext2Fs} {f f' : Ext2File}
    (h : ext2BlockChain euid alloc n shift lvl idxShift id F f = some (F', f', id')) :
    f'.attr = f.attr ∧ f.blocks ≤ f'.blocks := by
  induction lvl generalizing idxShift id F f with
  | zero =>
    rw [ext2BlockChain] at h
    obtain ⟨⟨F₁, f₁, id₁⟩, h₁, h₂⟩ := Option.bind_eq_some_iff.mp h
    obtain ⟨ha, hb, -⟩ := ext2SlotBlock_grows h₁
    dsimp only at h₂
    split_ifs at h₂ <;> (cases h₂; exact ⟨ha, hb⟩)
  | succ lvl ih =>
    rw [ext2BlockChain] at h
    obtain ⟨⟨F₁, f₁, id₁⟩, h₁, h₂⟩ := Option.bind_eq_some_iff.mp h
    obtain ⟨ha, hb, -⟩ := ext2SlotBlock_grows h₁
    dsimp only at h₂
    split_ifs at h₂
    · cases h₂
      exact ⟨ha, hb⟩
    · obtain ⟨ha', hb'⟩ := ih h₂
      exact ⟨ha'.trans ha, hb.trans hb'⟩

/-- `ext2_inode_get_block` leaves the attributes of the inode and only adds to its block
count. -/
theorem ext2InodeGetBlock_grows {euid n id : Nat} {alloc : Bool} {F F' : Ext2Fs}
    {f f' : Ext2File} (h : ext2InodeGetBlock euid F f n alloc = some (F', f', id)) :
    f'.attr = f.attr ∧ f.blocks ≤ f'.blocks := by
  unfold ext2InodeGetBlock at h
  split at h
  · exact (ext2SlotBlock_grows h).imp_right And.left
  · generalize ext2BlockLevel (shiftPerLvl F.sb) 0 (n - ext2MaxDirectBlocks)
      ((1 <<< shiftPerLvl F.sb) % 2 ^ 32) 0 = t at h
    obtain ⟨lvl, m, idxShift⟩ := t
    dsimp only at h
    split at h
    · cases h
      exact ⟨rfl, Nat.le_refl _⟩
    · obtain ⟨⟨F₁, f₁, id₁⟩, h₁, h₂⟩ := Option.bind_eq_some_iff.mp h
      obtain ⟨ha, hb, -⟩ := ext2SlotBlock_grows h₁
      dsimp only at h₂
      split at h₂
      · cases h₂
        exact ⟨ha, hb⟩
      · obtain ⟨ha', hb'⟩ := ext2BlockChain_grows h₂
        exact ⟨ha'.trans ha, hb.trans hb'⟩

section
variable {ρ : Type} (ch : Channel ρ)

/-- `ext2_write` leaves the attributes of the inode, `size` among them, and only adds to its
block count. -/
theorem ext2WriteLoop_grows {euid nbyte total off : Nat} {F F' : Ext2Fs} {f f' : Ext2File}
    {r r' : ρ} {w : Int} (h : ext2WriteLoop ch euid nbyte F f r total off = some (F', f', r', w)) :
    f'.attr = f.attr ∧ f.blocks ≤ f'.blocks := by
  fun_induction ext2WriteLoop ch euid nbyte F f r total off with
  | case1 => cases h
  | case2 F f r total off hlt F₁ f₁ hget =>
    cases h
    exact ext2InodeGetBlock_grows hget
  | case3 => cases h
  | case4 F f r total off hlt F₁ f₁ id hget n hid r₁ bytes hread words ih =>
    obtain ⟨ha, hb⟩ := ext2InodeGetBlock_grows hget
    obtain ⟨ha', hb'⟩ := ih h
    exact ⟨ha'.trans ha, hb.trans hb'⟩
  | case5 =>
    cases h
    exact ⟨rfl, Nat.le_refl _⟩

/-- A write from offset 0 into an inode with no first block makes that block in its first
round, or fails with `-ENOMEM`: once it succeeds, the inode counts a block. -/
theorem ext2WriteLoop_blocks_pos {euid nbyte : Nat} {F F' : Ext2Fs} {f f' : Ext2File}
    {r r' : ρ} {w : Int} (hf : f.block 0 = 0) (hn : 0 < nbyte)
    (h : ext2WriteLoop ch euid nbyte F f r 0 0 = some (F', f', r', w)) (hw : 0 ≤ w) :
    0 < f'.blocks := by
  have hget : ext2InodeGetBlock euid F f (0 / F.sb.blockSize) true =
      ext2SlotBlock euid true F f (.inode 0) := by
    rw [Nat.zero_div]
    unfold ext2InodeGetBlock
    rw [if_pos (by decide)]
  rw [ext2WriteLoop, if_pos hn, hget] at h
  cases hs : ext2SlotBlock euid true F f (.inode 0) with
  | none =>
    rw [hs] at h
    cases h
  | some x =>
    obtain ⟨F₁, f₁, id⟩ := x
    rw [hs] at h
    dsimp only at h
    split_ifs at h with hid
    · -- no block could be made: the write replies `-ENOMEM`
      cases h
      exact absurd hw (by decide)
    · -- the block is made and counted, and the rounds after only add blocks
      have h₁ : 0 < f₁.blocks := (ext2SlotBlock_grows hs).2.2 hf hid
      split at h
      · cases h
      · exact Nat.lt_of_lt_of_le h₁ (ext2WriteLoop_grows ch h).2

end

/-! ## Levels -/

theorem ext2BlockLevel_found {shift lvl n limit idxShift : Nat} (hl : lvl < 3) (hn : n < limit) :
    ext2BlockLevel shift lvl n limit idxShift = (lvl, n, idxShift) := by
  rw [ext2BlockLevel, if_pos hl, if_pos hn]

theorem ext2BlockLevel_next {shift lvl n limit idxShift : Nat} (hl : lvl < 3) (hn : limit ≤ n) :
    ext2BlockLevel shift lvl n limit idxShift =
      ext2BlockLevel shift (lvl + 1) (n - limit) ((limit <<< shift) % 2 ^ 32)
        (idxShift + shift) := by
  rw [ext2BlockLevel, if_pos hl, if_neg (Nat.not_lt.mpr hn)]

theorem ext2BlockLevel_three {shift n limit idxShift : Nat} :
    ext2BlockLevel shift 3 n limit idxShift = (3, n, idxShift) := by
  rw [ext2BlockLevel, if_neg (Nat.lt_irrefl 3)]

/-- `lvl_limit <<= shift_per_lvl` on a power of two, in 32 bits. -/
theorem pow_shiftLeft_mod (k shift : Nat) :
    (2 ^ k <<< shift) % 2 ^ 32 = 2 ^ (k + shift) % 2 ^ 32 := by
  rw [Nat.shiftLeft_eq, ← Nat.pow_add]

theorem pow_mod_of_lt {k : Nat} (h : k < 32) : 2 ^ k % 2 ^ 32 = 2 ^ k :=
  Nat.mod_eq_of_lt (Nat.pow_lt_pow_right (by decide) h)

theorem pow_mod_of_le {k : Nat} (h : 32 ≤ k) : 2 ^ k % 2 ^ 32 = 0 :=
  Nat.mod_eq_zero_of_dvd (Nat.pow_dvd_pow 2 h)

/-- `P`, the ids of an indirect block, is `2 ^ shift_per_lvl`. -/
theorem blockSize_div_four (sb : Ext2SuperblockData) : sb.blockSize / 4 = 2 ^ shiftPerLvl sb := by
  unfold Ext2SuperblockData.blockSize shiftPerLvl
  rw [Nat.shiftLeft_eq, show 10 - 2 + sb.logBlockSize = 8 + sb.logBlockSize from rfl, Nat.pow_add]
  omega

/-- While the levels fit in 32 bits, every index past the direct ones and below
`P + P ^ 2 + P ^ 3` gets a level of indirection. -/
theorem ext2BlockLevel_lt_three {shift m : Nat} (hshift : 3 * shift < 32)
    (hm : m < 2 ^ shift + 2 ^ (2 * shift) + 2 ^ (3 * shift)) :
    (ext2BlockLevel shift 0 m ((1 <<< shift) % 2 ^ 32) 0).1 < 3 := by
  have l₀ : (1 <<< shift) % 2 ^ 32 = 2 ^ shift := by
    rw [← Nat.pow_zero 2, pow_shiftLeft_mod, Nat.zero_add, pow_mod_of_lt (by omega)]
  have l₁ : (2 ^ shift <<< shift) % 2 ^ 32 = 2 ^ (2 * shift) := by
    rw [pow_shiftLeft_mod, ← Nat.two_mul, pow_mod_of_lt (by omega)]
  have l₂ : (2 ^ (2 * shift) <<< shift) % 2 ^ 32 = 2 ^ (3 * shift) := by
    rw [pow_shiftLeft_mod, show 2 * shift + shift = 3 * shift by omega, pow_mod_of_lt hshift]
  rw [l₀]
  -- the single indirect level, then the double, then the triple
  by_cases h₀ : m < 2 ^ shift
  · rw [ext2BlockLevel_found (by decide) h₀]
    exact Nat.zero_lt_succ _
  rw [ext2BlockLevel_next (by decide) (by omega), l₁]
  by_cases h₁ : m - 2 ^ shift < 2 ^ (2 * shift)
  · rw [ext2BlockLevel_found (by decide) h₁]
    exact Nat.succ_lt_succ (Nat.zero_lt_succ _)
  rw [ext2BlockLevel_next (by decide) (by omega), l₂, ext2BlockLevel_found (by decide) (by omega)]
  exact Nat.lt_succ_self _

/-- Once `P ^ 3` does not fit in 32 bits, the size of the triple level is 0, and every index
from `P + P ^ 2` on falls through to level 3. -/
theorem ext2BlockLevel_overflow {shift m : Nat} (h₂ : 2 * shift < 32) (h₃ : 32 ≤ 3 * shift)
    (hm : 2 ^ shift + 2 ^ (2 * shift) ≤ m) :
    ext2BlockLevel shift 0 m ((1 <<< shift) % 2 ^ 32) 0 =
      (3, m - 2 ^ shift - 2 ^ (2 * shift), 0 + shift + shift + shift) := by
  have l₀ : (1 <<< shift) % 2 ^ 32 = 2 ^ shift := by
    rw [← Nat.pow_zero 2, pow_shiftLeft_mod, Nat.zero_add, pow_mod_of_lt (by omega)]
  have l₁ : (2 ^ shift <<< shift) % 2 ^ 32 = 2 ^ (2 * shift) := by
    rw [pow_shiftLeft_mod, ← Nat.two_mul, pow_mod_of_lt (by omega)]
  have l₂ : (2 ^ (2 * shift) <<< shift) % 2 ^ 32 = 0 := by
    rw [pow_shiftLeft_mod, pow_mod_of_le (by omega)]
  rw [l₀, ext2BlockLevel_next (by decide) (by omega), l₁,
    ext2BlockLevel_next (by decide) (by omega), l₂, ext2BlockLevel_next (by decide) (Nat.zero_le _),
    ext2BlockLevel_three, Nat.sub_zero]

/-! ## Blocks of 8 KiB and more -/

/-- With blocks of 8 KiB to 128 KiB, `ext2_inode_get_block` returns 0 for every index from
`12 + P + P ^ 2` on, with `alloc` or without, and changes nothing: the triple indirect level is
never reached, although its indices are below `12 + P + P ^ 2 + P ^ 3`. -/
theorem triple_indirect_unmapped (euid : Nat) (F : Ext2Fs) (f : Ext2File) (alloc : Bool)
    (n : Nat) (hlog : 3 ≤ F.sb.logBlockSize) (hlog' : F.sb.logBlockSize < 8)
    (hn : ext2MaxDirectBlocks + F.sb.blockSize / 4 + (F.sb.blockSize / 4) ^ 2 ≤ n) :
    ext2InodeGetBlock euid F f n alloc = some (F, f, 0) := by
  rw [blockSize_div_four, ← Nat.pow_mul, Nat.mul_comm] at hn
  have hshift : shiftPerLvl F.sb = 8 + F.sb.logBlockSize := rfl
  have h₂ : 2 * shiftPerLvl F.sb < 32 := by rw [hshift]; omega
  have h₃ : 32 ≤ 3 * shiftPerLvl F.sb := by rw [hshift]; omega
  -- the index past the direct blocks is past the single and the double levels
  have hm : 2 ^ shiftPerLvl F.sb + 2 ^ (2 * shiftPerLvl F.sb) ≤ n - ext2MaxDirectBlocks :=
    Nat.le_sub_of_add_le (by rwa [Nat.add_assoc, Nat.add_comm] at hn)
  have hlevel := ext2BlockLevel_overflow h₂ h₃ hm
  have hdirect : ext2MaxDirectBlocks ≤ n :=
    Nat.le_trans (Nat.le_add_right _ _) (Nat.le_trans (Nat.le_add_right _ _) hn)
  unfold ext2InodeGetBlock
  rw [if_neg (Nat.not_lt.mpr hdirect)]
  dsimp only
  rw [hlevel]
  rfl

/-- An ext2 file system of 8 KiB blocks, and the first index of the triple level, `12 + 2048 +
2048 ^ 2`. -/
def fs8k : Ext2Fs := { fileFs with sb := { fileFs.sb with logBlockSize := 3 } }

theorem triple_indirect_unmapped_fs8k :
    ext2InodeGetBlock 0 fs8k emptyFile (12 + 2048 + 2048 ^ 2) true = some (fs8k, emptyFile, 0) :=
  triple_indirect_unmapped 0 fs8k emptyFile true _ (by decide) (by decide) (by decide)

/-- With 4 KiB blocks the same place, the first index of the triple level, has a level. -/
example : (ext2BlockLevel 10 0 (1024 + 1024 ^ 2) ((1 <<< 10) % 2 ^ 32) 0).1 = 2 := by
  decide +kernel

end Argentum.Fs
