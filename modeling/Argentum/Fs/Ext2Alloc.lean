import Mathlib.Data.List.Range
import Mathlib.Tactic.SplitIfs
import Argentum.Lib.Bitmap
import Argentum.Fs.Errno

/-!
# Argentum.Fs.Ext2Alloc

The block and inode allocators of `kernel/fs/ext2_bitmap.c`, `kernel/fs/ext2_block_alloc.c` and
`kernel/fs/ext2_inode_alloc.c`. A file system's blocks and inodes are split into groups; each
group has a bitmap of its blocks and one of its inodes, and its descriptor counts the free ones.
The superblock counts the free ones of all groups. `ext2_bitmap_alloc` sets the first clear
bit of a bitmap, and `ext2_bitmap_free` clears a set one, through the words of the
`WordBitmap` library.

The disk is its blocks as arrays of 32-bit words, which is how the allocators read the
bitmaps. The group descriptor table is kept by group number: the scans read descriptor
`g + gi` from slot `gi` of the table's block `g / gds_per_block`. `buf_read` is taken to
succeed, and `ext2_sb_sync` writes out the superblock data the model already holds.

The allocators number block `bit` of group `g` as `g * blocks_per_group + bit`, and never read
`first_data_block`. The ext2 layout numbers it `first_data_block + g * blocks_per_group + bit`,
and `first_data_block` is 1 on a file system of 1 KiB blocks: there the number handed out is
the block before the one whose bit was set (`block_alloc_returns_used_block`).
-/

namespace Argentum.Fs

/-- The fields of `struct Ext2SuperblockData` that the allocators read. -/
structure Ext2SuperblockData where
  inodesCount : Nat
  blockCount : Nat
  rBlocksCount : Nat
  freeBlocksCount : Nat
  freeInodesCount : Nat
  logBlockSize : Nat
  blocksPerGroup : Nat
  inodesPerGroup : Nat
  deriving DecidableEq, Repr

/-- `sb->block_size`, which `ext2_mount` sets to `1024 << log_block_size`. -/
def Ext2SuperblockData.blockSize (sb : Ext2SuperblockData) : Nat := 1024 <<< sb.logBlockSize

/-- `struct Ext2BlockGroup`, without `used_dirs_count`. -/
structure Ext2BlockGroup where
  blockBitmap : Nat
  inodeBitmap : Nat
  inodeTable : Nat
  freeBlocksCount : Nat
  freeInodesCount : Nat
  deriving DecidableEq, Repr, Inhabited

/-- The blocks of the device, as arrays of 32-bit words. -/
abbrev Disk := Nat → Nat → BitVec 32

/-- A file system: the superblock data, the group descriptors by group number, and the disk. -/
structure Ext2Fs where
  sb : Ext2SuperblockData
  gds : Nat → Ext2BlockGroup
  disk : Disk

/-- `bits_per_block` of the bitmap functions. -/
def bitsPerBlock (sb : Ext2SuperblockData) : Nat := sb.blockSize * 8

theorem bitsPerBlock_pos (sb : Ext2SuperblockData) : 0 < bitsPerBlock sb := by
  unfold bitsPerBlock Ext2SuperblockData.blockSize
  rw [Nat.shiftLeft_eq]
  exact Nat.mul_pos (Nat.mul_pos (by decide) (Nat.two_pow_pos _)) (by decide)

/-! ## Bitmaps -/

/-- The loop of `ext2_bitmap_alloc(sb, bstart, blen, dev, &bit)` from bit `b`: in each block of
the bitmap, the first clear bit of those below `blen` is set and returned. -/
def ext2BitmapAllocLoop (sb : Ext2SuperblockData) (disk : Disk) (bstart blen b : Nat) :
    Disk × Option Nat :=
  if b < blen then
    let blk := bstart + b / bitsPerBlock sb
    match (List.range (min (bitsPerBlock sb) (blen - b))).find?
        (fun bi => !WordBitmap.test (disk blk) bi) with
    | some bi => (Function.update disk blk (WordBitmap.set (disk blk) bi), some (b + bi))
    | none => ext2BitmapAllocLoop sb disk bstart blen (b + bitsPerBlock sb)
  else (disk, none)
termination_by blen - b
decreasing_by
  have := bitsPerBlock_pos sb
  omega

/-- `ext2_bitmap_alloc(sb, bstart, blen, dev, &bit)`: the disk and the bit it set, or none
(`-ENOMEM`). -/
def ext2BitmapAlloc (sb : Ext2SuperblockData) (disk : Disk) (bstart blen : Nat) :
    Disk × Option Nat :=
  ext2BitmapAllocLoop sb disk bstart blen 0

/-- `ext2_bitmap_free(sb, bstart, dev, bit_no)`: clear a set bit; a clear one panics. -/
def ext2BitmapFree (sb : Ext2SuperblockData) (disk : Disk) (bstart bitNo : Nat) : Option Disk :=
  let blk := bstart + bitNo / bitsPerBlock sb
  let bi := bitNo % bitsPerBlock sb
  if !WordBitmap.test (disk blk) bi then none
  else some (Function.update disk blk (WordBitmap.clear (disk blk) bi))

/-- A position `k` further into the block of `n` that holds `off`, when it stays in that block. -/
theorem div_mod_add_of_lt {off k n : Nat} (hk : off % n + k < n) :
    (off + k) / n = off / n ∧ (off + k) % n = off % n + k := by
  have hn : 0 < n := by omega
  have h1 : off + k = n * (off / n) + (off % n + k) := by
    have := Nat.div_add_mod off n
    omega
  rw [h1, Nat.mul_add_div hn, Nat.div_eq_of_lt hk, Nat.mul_add_mod, Nat.mod_eq_of_lt hk]
  exact ⟨rfl, rfl⟩

/-- The bit that the loop sets is below `blen`, was clear, and is the one bit that changed. The
loop moves a whole block of the bitmap at a time, so it starts each block at a multiple of
`bits_per_block`. -/
theorem ext2BitmapAllocLoop_some {sb : Ext2SuperblockData} {disk disk' : Disk}
    {bstart blen b bit : Nat} (hb : b % bitsPerBlock sb = 0)
    (h : ext2BitmapAllocLoop sb disk bstart blen b = (disk', some bit)) :
    bit < blen ∧
      WordBitmap.test (disk (bstart + bit / bitsPerBlock sb)) (bit % bitsPerBlock sb) = false ∧
      disk' = Function.update disk (bstart + bit / bitsPerBlock sb)
        (WordBitmap.set (disk (bstart + bit / bitsPerBlock sb)) (bit % bitsPerBlock sb)) := by
  have hpos := bitsPerBlock_pos sb
  fun_induction ext2BitmapAllocLoop sb disk bstart blen b with
  | case1 b hlt blk bi hfind =>
    have hclear := List.find?_some hfind
    have hbi := List.mem_range.1 (List.mem_of_find?_eq_some hfind)
    simp only [Prod.mk.injEq, Option.some.injEq] at h
    obtain ⟨rfl, rfl⟩ := h
    have hbi' : b % bitsPerBlock sb + bi < bitsPerBlock sb := by
      rw [hb, Nat.zero_add]
      exact lt_of_lt_of_le hbi (Nat.min_le_left _ _)
    obtain ⟨hdiv, hmod⟩ := div_mod_add_of_lt hbi'
    rw [hb, Nat.zero_add] at hmod
    refine ⟨by omega, ?_, ?_⟩
    · rw [hdiv, hmod]
      simpa using hclear
    · rw [hdiv, hmod]
  | case2 b hlt blk hfind ih =>
    exact ih (by rw [Nat.add_mod_right, hb]) h
  | case3 b hge => cases h

/-- `ext2_bitmap_free` of the bit that `ext2_bitmap_alloc` set gives the disk back: the two
number a bit the same way. -/
theorem ext2BitmapFree_alloc {sb : Ext2SuperblockData} {disk disk' : Disk} {bstart blen bit : Nat}
    (h : ext2BitmapAlloc sb disk bstart blen = (disk', some bit)) :
    ext2BitmapFree sb disk' bstart bit = some disk := by
  obtain ⟨-, hclear, rfl⟩ := ext2BitmapAllocLoop_some (Nat.zero_mod _) h
  have hw : 0 < 32 := by decide
  unfold ext2BitmapFree
  simp only [Function.update_self, WordBitmap.test_set hw, decide_true, Bool.true_or,
    Bool.not_true, Bool.false_eq_true, if_false]
  rw [WordBitmap.clear_set hw hclear, Function.update_idem, Function.update_eq_self]

/-- A block bitmap whose bits 0 to 4 are set, on 4 KiB blocks: the allocation takes bit 5. -/
theorem ext2BitmapFree_alloc_sixth :
    ∃ disk', ext2BitmapAlloc ⟨32, 1024, 0, 1019, 30, 2, 1024, 32⟩
        (fun blk i => if blk = 2 ∧ i = 0 then 0x1f else 0) 2 8 = (disk', some 5) ∧
      ext2BitmapFree ⟨32, 1024, 0, 1019, 30, 2, 1024, 32⟩ disk' 2 5 =
        some fun blk i => if blk = 2 ∧ i = 0 then 0x1f else 0 := by
  have h5 : (ext2BitmapAlloc ⟨32, 1024, 0, 1019, 30, 2, 1024, 32⟩
      (fun blk i => if blk = 2 ∧ i = 0 then 0x1f else 0) 2 8).2 = some 5 := by
    decide +kernel
  exact ⟨_, Prod.ext rfl h5, ext2BitmapFree_alloc (Prod.ext rfl h5)⟩

/-! ## Groups -/

/-- What `ext2_block_group_alloc` and `ext2_inode_group_alloc` share: a group with `free` of
them free allocates a bit of its bitmap at `bitmap` of `len` bits; one that finds none is
corrupted and panics. -/
def ext2GroupAlloc (sb : Ext2SuperblockData) (disk : Disk) (free bitmap len : Nat) :
    Option (Disk × Option Nat) :=
  if free = 0 then some (disk, none)
  else
    match ext2BitmapAlloc sb disk bitmap len with
    | (_, none) => none
    | (disk, some bit) => some (disk, some bit)

/-- `ext2_block_group_alloc(sb, gd, dev, &bit)`. -/
def ext2BlockGroupAlloc (sb : Ext2SuperblockData) (disk : Disk) (gd : Ext2BlockGroup) :
    Option (Disk × Option (Ext2BlockGroup × Nat)) :=
  (ext2GroupAlloc sb disk gd.freeBlocksCount gd.blockBitmap sb.blocksPerGroup).map fun (disk, r) =>
    (disk, r.map fun bit => ({ gd with freeBlocksCount := gd.freeBlocksCount - 1 }, bit))

/-- `ext2_inode_group_alloc(sb, gd, dev, &bit)`. -/
def ext2InodeGroupAlloc (sb : Ext2SuperblockData) (disk : Disk) (gd : Ext2BlockGroup) :
    Option (Disk × Option (Ext2BlockGroup × Nat)) :=
  (ext2GroupAlloc sb disk gd.freeInodesCount gd.inodeBitmap sb.inodesPerGroup).map fun (disk, r) =>
    (disk, r.map fun bit => ({ gd with freeInodesCount := gd.freeInodesCount - 1 }, bit))

/-- `gds_per_block`: the descriptors in a block of the table. -/
def gdsPerBlock (sb : Ext2SuperblockData) : Nat := sb.blockSize / 32

/-- The group numbers `g + gi` that a scan of the descriptor table visits: block after block of
`perBlock` descriptors, from `g = 0` while `g < total`, the first `slots g` of each. -/
def gdScan (total perBlock : Nat) (slots : Nat → Nat) : List Nat :=
  (List.range ((total + perBlock - 1) / perBlock)).flatMap fun j =>
    (List.range (slots (j * perBlock))).map (j * perBlock + ·)

/-- A scan of the groups `gs` with `alloc`: the first group that allocates, and what it gave. -/
def ext2GroupScan {α : Type} (alloc : Disk → Nat → Option (Disk × Option α)) :
    List Nat → Disk → Option (Disk × Option (Nat × α))
  | [], disk => some (disk, none)
  | g :: gs, disk =>
    match alloc disk g with
    | none => none
    | some (disk, none) => ext2GroupScan alloc gs disk
    | some (disk, some a) => some (disk, some (g, a))

/-! ## Blocks -/

/-- `ext2_block_alloc(process, sb, dev, &bno)` for a process with effective user `euid`: the
number of a zeroed block, or an error. The superblock's count is taken before the scan and
given back if no group has a free block. -/
def ext2BlockAlloc (euid : Nat) (F : Ext2Fs) : Option (Ext2Fs × Except Int Nat) := do
  let sb := F.sb
  if sb.freeBlocksCount = 0 then return (F, .error (-eNoSpc))
  if sb.freeBlocksCount < sb.rBlocksCount ∧ euid ≠ 0 then return (F, .error (-eNoSpc))
  let total := sb.blockCount / sb.blocksPerGroup
  let groups := gdScan total (gdsPerBlock sb) fun g => min (gdsPerBlock sb) (total - g)
  let F := { F with sb := { sb with freeBlocksCount := sb.freeBlocksCount - 1 } }
  match ← ext2GroupScan (fun disk g => ext2BlockGroupAlloc F.sb disk (F.gds g)) groups F.disk with
  | (disk, some (g, gd, bit)) =>
    let block := bit + g * sb.blocksPerGroup
    -- `ext2_block_zero`
    let disk := Function.update disk block fun _ => 0
    return ({ F with gds := Function.update F.gds g gd, disk }, .ok block)
  | (disk, none) =>
    return ({ F with sb := sb, disk }, .error (-eNoMem))

/-- `ext2_block_free(sb, dev, bno)`. -/
def ext2BlockFree (F : Ext2Fs) (bno : Nat) : Option Ext2Fs := do
  let g := bno / F.sb.blocksPerGroup
  let gd := F.gds g
  let disk ← ext2BitmapFree F.sb F.disk gd.blockBitmap (bno % F.sb.blocksPerGroup)
  return { F with
    gds := Function.update F.gds g { gd with freeBlocksCount := gd.freeBlocksCount + 1 }
    disk
    sb := { F.sb with freeBlocksCount := F.sb.freeBlocksCount + 1 } }

/-! ## Inodes -/

/-- `ext2_inode_alloc(sb, mode, rdev, dev, &ino, parent)` of an inode that is not a device
(for which `ext2_inode_init` allocates a block too): the new inode's number, or an error. It
tries the group of `parent` first, then scans the descriptor table by whole blocks of it. -/
def ext2InodeAlloc (F : Ext2Fs) (parent : Nat) : Option (Ext2Fs × Except Int Nat) := do
  let sb := F.sb
  if sb.freeInodesCount = 0 then return (F, .error (-eNoSpc))
  let F := { F with sb := { sb with freeInodesCount := sb.freeInodesCount - 1 } }
  let g0 := (parent - 1) / sb.inodesPerGroup
  match ← ext2InodeGroupAlloc F.sb F.disk (F.gds g0) with
  | (disk, some (gd, bit)) =>
    return ({ F with gds := Function.update F.gds g0 gd, disk }, .ok (bit + 1 + g0 * sb.inodesPerGroup))
  | (disk, none) =>
    let groups := gdScan (sb.inodesCount / sb.inodesPerGroup) (gdsPerBlock sb)
      fun _ => gdsPerBlock sb
    match ← ext2GroupScan (fun disk g => ext2InodeGroupAlloc F.sb disk (F.gds g)) groups disk with
    | (disk, some (g, gd, bit)) =>
      return ({ F with gds := Function.update F.gds g gd, disk },
        .ok (bit + 1 + g * sb.inodesPerGroup))
    | (disk, none) => return ({ F with sb := sb, disk }, .error (-eNoMem))

/-- `ext2_inode_free(sb, dev, ino)`. -/
def ext2InodeFree (F : Ext2Fs) (ino : Nat) : Option Ext2Fs := do
  let g := (ino - 1) / F.sb.inodesPerGroup
  let gd := F.gds g
  let disk ← ext2BitmapFree F.sb F.disk gd.inodeBitmap ((ino - 1) % F.sb.inodesPerGroup)
  return { F with
    gds := Function.update F.gds g { gd with freeInodesCount := gd.freeInodesCount + 1 }
    disk
    sb := { F.sb with freeInodesCount := F.sb.freeInodesCount + 1 } }

/-! ## Block numbers and the layout -/

/-- The block that bit `bit` of group `g`'s block bitmap stands for in the ext2 layout, on a file
system whose first group begins at `first_data_block`. -/
def ext2LayoutBlock (firstDataBlock blocksPerGroup g bit : Nat) : Nat :=
  firstDataBlock + g * blocksPerGroup + bit

/-- A file system of 1 KiB blocks (`first_data_block` 1) with one group of 8192 blocks and 8
inodes, as `mke2fs` lays it out: the superblock at 1, the descriptor table at 2, the bitmaps at 3
and 4, and the inode table at 5. Bits 0 to 4 of the block bitmap stand for blocks 1 to 5 and are
set, inodes 1 and 2 are in use, and the free counts are those of the clear bits. -/
def smallExt2Fs : Ext2Fs where
  sb := ⟨8, 8193, 0, 8187, 6, 0, 8192, 8⟩
  gds _ := ⟨3, 4, 5, 8187, 6⟩
  disk blk i :=
    if blk = 3 ∧ i = 0 then 31
    else if blk = 4 ∧ i = 0 then 3
    else if blk = 5 ∧ i = 0 then 0xdeadbeef
    else 0

/-- On `smallExt2Fs` the first block allocation sets bit 5, which stands for block 6, and hands
out block 5: the inode table, whose bit (4) was set all along. It then zeroes the inode table. -/
theorem block_alloc_returns_used_block :
    (ext2BlockAlloc 1000 smallExt2Fs).map (fun x =>
        (x.2.toOption, WordBitmap.test (x.1.disk 3) 5, x.1.disk 5 0)) = some (some 5, true, 0) ∧
      ext2LayoutBlock 1 8192 0 5 = 6 ∧ ext2LayoutBlock 1 8192 0 4 = 5 ∧
      WordBitmap.test (smallExt2Fs.disk 3) 4 = true ∧ smallExt2Fs.disk 5 0 = 0xdeadbeef := by
  decide +kernel

end Argentum.Fs
