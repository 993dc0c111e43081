import Argentum.Lib.WordBytes
import Argentum.Ipc.Transfer
import Argentum.Fs.Permission
import Argentum.Fs.Ext2Alloc

/-!
# Argentum.Fs.Ext2File

The contents of an ext2 regular file: `ext2_inode_get_block`, `ext2_read`, `ext2_write`,
`ext2_trunc_indirect` and `ext2_trunc` of `kernel/fs/ext2_inode.c`, and the handlers
`do_read`, `do_write`, `do_seek` and `do_trunc` of `kernel/fs/service.c` on a connection to
such a file.

A file's blocks are found through the twelve direct ids of its inode, and then through one,
two and three levels of indirect blocks, whose ids are 32-bit words on the disk. The data
blocks hold the file's bytes, four to a word (`WordBytes`). A block that is not there reads as
a hole: `ext2_read` then stops in `k_panic("zero block req ...")`, which the model gives as
`none`. `ext2_write` makes the blocks it writes with `ext2_block_alloc`, which zeroes them.

The handlers receive and send the bytes through `request_read` and `request_write`, which
are a parameter of the model (`Channel`); `ipcChannel` is the IPC request of
`Argentum.Ipc.Transfer`. Offsets stay below `2 ^ 31`, where `off_t` arithmetic does not
wrap; the casts that the checks of `do_read_locked` and `do_write_locked` make are kept. The
times and the dirty flag that the handlers set are left out.

`ext2ReadLoop_buffer` says what `ext2_read` sends: the bytes of the blocks, as long as no
hole is touched. Writing past the end leaves a hole that a later read stops in, and a
truncation leaves the bytes past the new end in the last block, where a write past them brings
them back (`file_read_hits_hole`).
-/

namespace Argentum.Fs

open Argentum.Ipc

/-! ## Requests -/

/-- How a service moves a request's bytes: `request_read(req, buf, n)` takes up to `n` bytes
from the client, and `request_write(req, buf, n)` hands bytes to it and gives the number sent or
an error. `none` is a panic. -/
structure Channel (ρ : Type) where
  read : ρ → Nat → Option (ρ × List UInt8)
  write : ρ → List UInt8 → Option (ρ × Int)

/-- The IPC request of `Argentum.Ipc.Transfer`, with the memory it copies through. -/
def ipcChannel : Channel (Space × Request) where
  read x n := (requestRead x.1 x.2 n).map fun y => ((x.1, y.1), y.2)
  write x bs := (requestWrite x.1 x.2 bs).map fun y => ((y.1, y.2.1), y.2.2)

/-- A client that sends the bytes of its first list and keeps what it is sent in its second. -/
def bufferChannel : Channel (List UInt8 × List UInt8) where
  read x n := some ((x.1.drop n, x.2), x.1.take n)
  write x bs := some ((x.1, x.2 ++ bs), bs.length)

/-! ## Blocks of a file -/

/-- `EXT2_MAX_DIRECT_BLOCKS`. -/
def ext2MaxDirectBlocks : Nat := 12

/-- A regular file's inode as the content functions see it: its attributes, `size` among them,
and the `block` ids and the `blocks` count of `struct Ext2InodeExtra`. -/
structure Ext2File where
  attr : InodeAttr
  block : Nat → Nat
  blocks : Nat

/-- `blocks_inc`: the 512-byte sectors of a block. -/
def blocksInc (sb : Ext2SuperblockData) : Nat := (1024 / 512) <<< sb.logBlockSize

/-- `shift_per_lvl`: an indirect block holds `2 ^ shift_per_lvl` ids. -/
def shiftPerLvl (sb : Ext2SuperblockData) : Nat := 10 - 2 + sb.logBlockSize

/-- Where a block id is kept: `block[k]` of the inode, or word `idx` of the indirect block
`blk`. -/
inductive IdSlot where
  | inode (k : Nat)
  | disk (blk idx : Nat)
  deriving DecidableEq, Repr

/-- The id in a slot. -/
def IdSlot.get (F : Ext2Fs) (f : Ext2File) : IdSlot → Nat
  | .inode k => f.block k
  | .disk blk idx => (F.disk blk idx).toNat

/-- A slot set to `id` (`*id_store = id`). -/
def IdSlot.set (F : Ext2Fs) (f : Ext2File) (id : Nat) : IdSlot → Ext2Fs × Ext2File
  | .inode k => (F, { f with block := Function.update f.block k id })
  | .disk blk idx =>
    let words := Function.update (F.disk blk) idx (BitVec.ofNat 32 id)
    ({ F with disk := Function.update F.disk blk words }, f)

/-- What `ext2_inode_get_block` does at each slot on the way: the id in it, or, with `alloc`,
a block from `ext2_block_alloc` put into it and counted in `blocks`. 0 if the slot is empty and
no block is made. -/
def ext2SlotBlock (euid : Nat) (alloc : Bool) (F : Ext2Fs) (f : Ext2File) (s : IdSlot) :
    Option (Ext2Fs × Ext2File × Nat) :=
  if s.get F f ≠ 0 then some (F, f, s.get F f)
  else if !alloc then some (F, f, 0)
  else
    (ext2BlockAlloc euid F).map fun
      | (F, .error _) => (F, f, 0)
      | (F, .ok id) =>
        let (F, f) := s.set F f id
        (F, { f with blocks := f.blocks + blocksInc F.sb }, id)

/-- The loop of `ext2_inode_get_block` that finds the level of indirection of block `n` past the
direct ones: the level, the index within it, and `lvl_idx_shift`. Level 3 is past the largest
file. -/
def ext2BlockLevel (shift lvl n limit idxShift : Nat) : Nat × Nat × Nat :=
  if lvl < 3 then
    if n < limit then (lvl, n, idxShift)
    else ext2BlockLevel shift (lvl + 1) (n - limit) ((limit <<< shift) % 2 ^ 32) (idxShift + shift)
  else (lvl, n, idxShift)
termination_by 3 - lvl

/-- The loop of `ext2_inode_get_block` down the chain of indirect blocks from the block `id`, at
level `lvl`, to the id of the data block of index `n`. -/
def ext2BlockChain (euid : Nat) (alloc : Bool) (n shift : Nat) :
    Nat → Nat → Nat → Ext2Fs → Ext2File → Option (Ext2Fs × Ext2File × Nat)
  | lvl, idxShift, id, F, f =>
    (ext2SlotBlock euid alloc F f (.disk id ((n >>> idxShift) &&& ((1 <<< shift) - 1)))).bind
      fun (F, f, id) =>
        if id = 0 then some (F, f, 0)
        else
          match lvl with
          | 0 => some (F, f, id)
          | lvl + 1 => ext2BlockChain euid alloc n shift lvl (idxShift - shift) id F f

/-- `ext2_inode_get_block(inode, n, alloc)` for a process with effective user `euid`: the id of
block `n` of the file, or 0. -/
def ext2InodeGetBlock (euid : Nat) (F : Ext2Fs) (f : Ext2File) (n : Nat) (alloc : Bool) :
    Option (Ext2Fs × Ext2File × Nat) :=
  if n < ext2MaxDirectBlocks then ext2SlotBlock euid alloc F f (.inode n)
  else
    let shift := shiftPerLvl F.sb
    let (lvl, n, idxShift) :=
      ext2BlockLevel shift 0 (n - ext2MaxDirectBlocks) ((1 <<< shift) % 2 ^ 32) 0
    if lvl ≥ 3 then some (F, f, 0)
    else
      (ext2SlotBlock euid alloc F f (.inode (ext2MaxDirectBlocks + lvl))).bind fun (F, f, id) =>
        if id = 0 then some (F, f, 0)
        else ext2BlockChain euid alloc n shift lvl idxShift id F f

theorem blockSize_pos (sb : Ext2SuperblockData) : 0 < sb.blockSize := by
  unfold Ext2SuperblockData.blockSize
  rw [Nat.shiftLeft_eq]
  exact Nat.mul_pos (by decide) (Nat.two_pow_pos _)

/-! ## Reading and writing -/

section
variable {ρ : Type} (ch : Channel ρ)

/-- The loop of `ext2_read(req, inode, nbyte, off)` after `total` bytes: each round sends the
bytes from `off` to the end of its block, or to `nbyte`. A block that is not there is
`k_panic("zero block req ...")`. The number of bytes, or `request_write`'s error. -/
def ext2ReadLoop (F : Ext2Fs) (f : Ext2File) (nbyte : Nat) (r : ρ) (total off : Nat) :
    Option (ρ × Int) :=
  if total < nbyte then
    match ext2InodeGetBlock 0 F f (off / F.sb.blockSize) false with
    | none => none
    | some (_, _, id) =>
      let n := min (nbyte - total) (F.sb.blockSize - off % F.sb.blockSize)
      if id = 0 then none
      else
        match ch.write r (WordBytes.getRange (F.disk id) (off % F.sb.blockSize) n) with
        | none => none
        | some (r, w) =>
          if w < 0 then some (r, w) else ext2ReadLoop F f nbyte r (total + n) (off + n)
  else some (r, total)
termination_by nbyte - total
decreasing_by
  have := Nat.mod_lt off (blockSize_pos F.sb)
  omega

/-- `ext2_read(req, inode, nbyte, off)`. -/
def ext2Read (F : Ext2Fs) (f : Ext2File) (r : ρ) (nbyte off : Nat) : Option (ρ × Int) :=
  ext2ReadLoop ch F f nbyte r 0 off

/-- The loop of `ext2_write(req, inode, nbyte, off)` after `total` bytes: each round makes the
block at `off` if it is not there and copies into it the bytes up to its end, or to `nbyte`;
`request_read`'s count is not looked at. -/
def ext2WriteLoop (euid nbyte : Nat) (F : Ext2Fs) (f : Ext2File) (r : ρ) (total off : Nat) :
    Option (Ext2Fs × Ext2File × ρ × Int) :=
  if total < nbyte then
    match ext2InodeGetBlock euid F f (off / F.sb.blockSize) true with
    | none => none
    | some (F₁, f₁, id) =>
      let n := min (nbyte - total) (F₁.sb.blockSize - off % F₁.sb.blockSize)
      if id = 0 then some (F₁, f₁, r, -eNoMem)
      else
        match ch.read r n with
        | none => none
        | some (r, bytes) =>
          let words := WordBytes.setRange (F₁.disk id) (off % F₁.sb.blockSize) bytes
          ext2WriteLoop euid nbyte { F₁ with disk := Function.update F₁.disk id words } f₁ r
            (total + n) (off + n)
  else some (F, f, r, total)
termination_by nbyte - total
decreasing_by
  have := Nat.mod_lt off (blockSize_pos F₁.sb)
  omega

/-- `ext2_write(req, inode, nbyte, off)` for a process with effective user `euid`. -/
def ext2Write (euid : Nat) (F : Ext2Fs) (f : Ext2File) (r : ρ) (nbyte off : Nat) :
    Option (Ext2Fs × Ext2File × ρ × Int) :=
  ext2WriteLoop ch euid nbyte F f r 0 off

end

/-! ## What a read sends -/

/-- A lookup that makes no block changes nothing and finds the id in the slot. -/
theorem ext2SlotBlock_read (euid : Nat) (F : Ext2Fs) (f : Ext2File) (s : IdSlot) :
    ext2SlotBlock euid false F f s = some (F, f, s.get F f) := by
  unfold ext2SlotBlock
  by_cases h : s.get F f = 0
  · rw [if_neg (not_not.2 h), Bool.not_false, if_pos rfl, h]
  · rw [if_pos h]

theorem ext2BlockChain_read (euid n shift : Nat) :
    ∀ lvl idxShift id F f, ∃ id',
      ext2BlockChain euid false n shift lvl idxShift id F f = some (F, f, id') := by
  intro lvl
  induction lvl with
  | zero =>
    intro idxShift id F f
    rw [ext2BlockChain, ext2SlotBlock_read, Option.bind_some]
    dsimp only
    split
    · exact ⟨0, rfl⟩
    · exact ⟨_, rfl⟩
  | succ lvl ih =>
    intro idxShift id F f
    rw [ext2BlockChain, ext2SlotBlock_read, Option.bind_some]
    dsimp only
    split
    · exact ⟨0, rfl⟩
    · exact ih _ _ F f

/-- `ext2_inode_get_block` with `alloc` 0 never panics and changes nothing. -/
theorem ext2InodeGetBlock_read (euid : Nat) (F : Ext2Fs) (f : Ext2File) (n : Nat) :
    ∃ id, ext2InodeGetBlock euid F f n false = some (F, f, id) := by
  unfold ext2InodeGetBlock
  split
  · exact ⟨_, ext2SlotBlock_read euid F f _⟩
  · generalize ext2BlockLevel (shiftPerLvl F.sb) 0 (n - ext2MaxDirectBlocks)
      ((1 <<< shiftPerLvl F.sb) % 2 ^ 32) 0 = t
    obtain ⟨lvl, m, idxShift⟩ := t
    dsimp only
    split
    · exact ⟨0, rfl⟩
    · rw [ext2SlotBlock_read, Option.bind_some]
      dsimp only
      split
      · exact ⟨0, rfl⟩
      · exact ext2BlockChain_read euid _ _ _ _ _ F f

/-- Block `n` of the file as a lookup that makes nothing finds it: its id, or 0 for a hole. -/
def ext2FileBlock (F : Ext2Fs) (f : Ext2File) (n : Nat) : Nat :=
  match ext2InodeGetBlock 0 F f n false with
  | some (_, _, id) => id
  | none => 0

/-- Byte `off` of the file as its blocks hold it, or none in a hole. -/
def ext2FileByte (F : Ext2Fs) (f : Ext2File) (off : Nat) : Option UInt8 :=
  let id := ext2FileBlock F f (off / F.sb.blockSize)
  if id = 0 then none else some (WordBytes.get (F.disk id) (off % F.sb.blockSize))

theorem ext2InodeGetBlock_lookup (F : Ext2Fs) (f : Ext2File) (n : Nat) :
    ext2InodeGetBlock 0 F f n false = some (F, f, ext2FileBlock F f n) := by
  obtain ⟨id, h⟩ := ext2InodeGetBlock_read 0 F f n
  rw [ext2FileBlock, h]

theorem ext2FileBlock_of_lookup {F F' : Ext2Fs} {f f' : Ext2File} {n id : Nat}
    (h : ext2InodeGetBlock 0 F f n false = some (F', f', id)) : ext2FileBlock F f n = id := by
  rw [ext2InodeGetBlock_lookup] at h
  simp only [Option.some.injEq, Prod.mk.injEq] at h
  exact h.2.2

theorem mapM_range_of_some {β : Type} {g : Nat → Option β} {h : Nat → β} :
    ∀ n, (∀ k < n, g k = some (h k)) → (List.range n).mapM g = some ((List.range n).map h)
  | 0, _ => rfl
  | n + 1, hg => by
    rw [List.range_succ, List.mapM_append, mapM_range_of_some n (fun k hk => hg k (by omega))]
    simp [hg n (by omega)]

/-- The bytes from `off` to the end of its block are those of the block's words. -/
theorem ext2FileByte_of_block {F : Ext2Fs} {f : Ext2File} {off id k : Nat}
    (hid : ext2FileBlock F f (off / F.sb.blockSize) = id) (h0 : id ≠ 0)
    (hk : off % F.sb.blockSize + k < F.sb.blockSize) :
    ext2FileByte F f (off + k) = some (WordBytes.get (F.disk id) (off % F.sb.blockSize + k)) := by
  obtain ⟨hdiv, hmod⟩ := div_mod_add_of_lt hk
  rw [ext2FileByte, hdiv, hmod, hid, if_neg h0]

/-- `ext2_read` to a client that takes every byte: from `total` on, it sends the file's bytes
up to `nbyte`, and panics if one of them is in a hole. -/
theorem ext2ReadLoop_buffer (F : Ext2Fs) (f : Ext2File) (nbyte : Nat)
    (r : List UInt8 × List UInt8) (total off : Nat) (h : total ≤ nbyte) :
    ext2ReadLoop bufferChannel F f nbyte r total off =
      ((List.range (nbyte - total)).mapM fun k => ext2FileByte F f (off + k)).map
        fun bs => ((r.1, r.2 ++ bs), (nbyte : Int)) := by
  fun_induction ext2ReadLoop bufferChannel F f nbyte r total off with
  | case1 r total off hlt hget =>
    rw [ext2InodeGetBlock_lookup] at hget
    cases hget
  | case2 r total off hlt F' f' hget =>
    -- the first byte is in a hole
    have hblk := ext2FileBlock_of_lookup hget
    have hbyte : ext2FileByte F f (off + 0) = none := by
      rw [Nat.add_zero, ext2FileByte, hblk, if_pos rfl]
    rw [show nbyte - total = (nbyte - total - 1) + 1 by omega, List.range_succ_eq_map,
      List.mapM_cons, hbyte]
    rfl
  | case3 r total off hlt F' f' id hget n hid hwrite =>
    simp [bufferChannel] at hwrite
  | case4 r total off hlt F' f' id hget n hid r' w hwrite hw =>
    simp only [bufferChannel, Option.some.injEq, Prod.mk.injEq] at hwrite
    omega
  | case5 r total off hlt F' f' id hget n hid r' w hwrite hw ih =>
    have hblk := ext2FileBlock_of_lookup hget
    simp only [bufferChannel, Option.some.injEq, Prod.mk.injEq] at hwrite
    obtain ⟨rfl, -⟩ := hwrite
    have hn : n = min (nbyte - total) (F.sb.blockSize - off % F.sb.blockSize) := rfl
    have hmod := Nat.mod_lt off (blockSize_pos F.sb)
    -- the bytes of this round are those of block `id`, and the rest come after them
    have hchunk : (List.range n).mapM (fun k => ext2FileByte F f (off + k)) =
        some (WordBytes.getRange (F.disk id) (off % F.sb.blockSize) n) :=
      mapM_range_of_some n fun k hk => ext2FileByte_of_block hblk hid (by omega)
    rw [ih (by omega), show nbyte - total = n + (nbyte - (total + n)) by omega, List.range_add,
      List.mapM_append, hchunk, List.mapM_map]
    simp only [Function.comp_def, Nat.add_assoc]
    cases List.mapM (fun k => ext2FileByte F f (off + (n + k)))
        (List.range (nbyte - (total + n))) <;>
      simp
  | case6 r total off hge =>
    have : total = nbyte := by omega
    subst this
    simp

/-! ## Truncation -/

/-- The `i`s of the loop of `ext2_trunc_indirect`, from `i` on: each next one is
`ROUND_DOWN(i + inc, inc)`, while below `limit`. -/
def ext2TruncSteps (inc limit i : Nat) : List Nat :=
  if _ : i < limit ∧ 0 < inc then i :: ext2TruncSteps inc limit (i + inc - (i + inc) % inc)
  else []
termination_by limit - i
decreasing_by
  have := Nat.mod_lt (i + inc) (by omega : 0 < inc)
  omega

/-- `ext2_trunc_indirect(inode, id_store, lvl, to)` with `k = lvl + 1`: frees the blocks of the
tree of depth `k` at the slot from index `to` (`start`) on, and the slot's own block if `to` is
0. -/
def ext2TruncIndirect : Nat → Ext2Fs → Ext2File → IdSlot → Nat → Option (Ext2Fs × Ext2File)
  | k, F, f, s, start =>
    let id := s.get F f
    if id = 0 then some (F, f)
    else
      let shift := shiftPerLvl F.sb
      let below : Option (Ext2Fs × Ext2File) :=
        match k with
        | 0 => some (F, f)
        | k + 1 =>
          let inc := (1 <<< (shift * k)) % 2 ^ 32
          (ext2TruncSteps inc ((inc <<< shift) % 2 ^ 32) start).foldlM
            (fun x i => ext2TruncIndirect k x.1 x.2 (.disk id (i / inc)) (i % inc)) (F, f)
      below.bind fun (F, f) =>
        if start = 0 then
          (ext2BlockFree F id).map fun F =>
            let (F, f) := s.set F f 0
            (F, { f with blocks := f.blocks - blocksInc F.sb })
        else some (F, f)

/-- The loop of `ext2_trunc` over the three levels of indirect blocks, at level `lvl` with `n`
the first block to free. -/
def ext2TruncLevels (endBlk shift : Nat) (F : Ext2Fs) (f : Ext2File)
    (lvl n lvlStart lvlLimit : Nat) : Option (Ext2Fs × Ext2File) :=
  if lvl < 3 ∧ n < endBlk then
    let lvlEnd := lvlStart + lvlLimit
    let r :=
      if n ≤ lvlEnd then
        ext2TruncIndirect (lvl + 1) F f (.inode (ext2MaxDirectBlocks + lvl)) (n - lvlStart)
      else some (F, f)
    r.bind fun (F, f) =>
      ext2TruncLevels endBlk shift F f (lvl + 1) lvlEnd (lvlStart + lvlLimit)
        ((lvlLimit <<< shift) % 2 ^ 32)
  else some (F, f)
termination_by 3 - lvl

/-- The direct blocks of the loop of `ext2_trunc`: block `k` freed if it is there. -/
def ext2TruncDirect (F : Ext2Fs) (f : Ext2File) (k : Nat) : Option (Ext2Fs × Ext2File) :=
  if f.block k ≠ 0 then
    (ext2BlockFree F (f.block k)).map fun F =>
      (F, { f with block := Function.update f.block k 0, blocks := f.blocks - blocksInc F.sb })
  else some (F, f)

/-- `ext2_trunc(process, inode, length)`: the blocks from the one that holds byte `length` on
are freed. -/
def ext2Trunc (F : Ext2Fs) (f : Ext2File) (length : Nat) : Option (Ext2Fs × Ext2File) :=
  let bs := F.sb.blockSize
  let n := (length + bs - 1) / bs
  let endBlk := (f.attr.size + bs - 1) / bs
  let direct := min endBlk ext2MaxDirectBlocks
  ((List.range' n (direct - n)).foldlM (fun x k => ext2TruncDirect x.1 x.2 k) (F, f)).bind
    fun (F, f) =>
      let shift := shiftPerLvl F.sb
      ext2TruncLevels endBlk shift F f 0 (max n direct) ext2MaxDirectBlocks
        ((1 <<< shift) % 2 ^ 32)

/-! ## The handlers -/

/-- An open file: its `offset`, and the `flags` of the connection. -/
structure OpenFile where
  offset : Nat
  flags : Nat
  deriving DecidableEq, Repr

/-- `(off_t) x` of a 32-bit value. -/
def toOffT (x : Nat) : Int :=
  if x % 2 ^ 32 < 2 ^ 31 then (x % 2 ^ 32 : Nat) else (x % 2 ^ 32 : Nat) - 2 ^ 32

/-- `(size_t) x`. -/
def toSizeT (x : Int) : Nat := (x % 2 ^ 32).toNat

/-- `SEEK_SET`, `SEEK_CUR` and `SEEK_END`. -/
def seekSet : Nat := 0
def seekCur : Nat := 1
def seekEnd : Nat := 2

section
variable {ρ : Type} (ch : Channel ρ) (p : Option Cred)

/-- The number of bytes `do_read_locked` asks `ext2_read` for: `nbyte`, or the bytes left
before `size` if the request runs past it (`size - offset`, as a `size_t`). -/
def readCount (size offset nbyte : Nat) : Nat :=
  if toOffT (offset + nbyte) > size then toSizeT (size - offset) else nbyte

/-- `do_read_locked(fs, req, connection, nbyte)` on the ext2 file `f` opened as `o`, for the
process `p`: the open file after it, and the reply. -/
def doReadLocked (F : Ext2Fs) (f : Ext2File) (o : OpenFile) (r : ρ) (nbyte : Nat) :
    Option (OpenFile × ρ × Int) :=
  if !fsInodePermission p f.attr fsPermRead false then some (o, r, -ePerm)
  else if toOffT (o.offset + nbyte) < o.offset then some (o, r, -eInval)
  else
    let nbyte := readCount f.attr.size o.offset nbyte
    if nbyte = 0 then some (o, r, 0)
    else
      (ext2Read ch F f r nbyte o.offset).map fun (r, total) =>
        if total ≥ 0 then ({ o with offset := o.offset + total.toNat }, r, total) else (o, r, total)

/-- `do_read(fs, req, msg)` on an ext2 regular file. -/
def doRead (F : Ext2Fs) (f : Ext2File) (o : OpenFile) (r : ρ) (nbyte : Nat) :
    Option (OpenFile × ρ × Int) :=
  if o.flags &&& oAccmode = oWronly then some (o, r, -eBadf)
  else doReadLocked ch p F f o r nbyte

/-- `do_write_locked(fs, req, connection, nbyte)`, with the blocks made for the process with
effective user `euid`. With `O_APPEND` the offset moves to the end first, whatever follows. -/
def doWriteLocked (euid : Nat) (F : Ext2Fs) (f : Ext2File) (o : OpenFile) (r : ρ) (nbyte : Nat) :
    Option (Ext2Fs × Ext2File × OpenFile × ρ × Int) :=
  if !fsInodePermission p f.attr fsPermWrite false then some (F, f, o, r, -ePerm)
  else
    let o := if o.flags &&& oAppend ≠ 0 then { o with offset := f.attr.size } else o
    if toOffT (o.offset + nbyte) < o.offset then some (F, f, o, r, -eInval)
    else if nbyte = 0 then some (F, f, o, r, 0)
    else
      (ext2Write ch euid F f r nbyte o.offset).map fun (F, f, r, total) =>
        if total > 0 then
          let o := { o with offset := o.offset + total.toNat }
          let f := if o.offset > f.attr.size then { f with attr := { f.attr with size := o.offset } }
            else f
          (F, f, o, r, total)
        else (F, f, o, r, total)

/-- `do_write(fs, req, msg)` on an ext2 regular file. -/
def doWrite (euid : Nat) (F : Ext2Fs) (f : Ext2File) (o : OpenFile) (r : ρ) (nbyte : Nat) :
    Option (Ext2Fs × Ext2File × OpenFile × ρ × Int) :=
  if o.flags &&& oAccmode = oRdonly then some (F, f, o, r, -eBadf)
  else doWriteLocked ch p euid F f o r nbyte

end

/-- `do_seek(fs, req, msg)`: the open file after it, and the reply. -/
def doSeek (f : Ext2File) (o : OpenFile) (offset : Int) (whence : Nat) : OpenFile × Int :=
  let newOffset : Option Int :=
    if whence = seekSet then some offset
    else if whence = seekCur then some (o.offset + offset)
    else if whence = seekEnd then some (f.attr.size + offset)
    else none
  match newOffset with
  | none => (o, -eInval)
  | some n => if n < 0 then (o, -eOverflow) else ({ o with offset := n.toNat }, n)

/-- `do_trunc(fs, req, msg)` for the process `p`. -/
def doTrunc (p : Option Cred) (F : Ext2Fs) (f : Ext2File) (o : OpenFile) (length : Int) :
    Option (Ext2Fs × Ext2File × Int) :=
  if o.flags &&& oAccmode = oRdonly then some (F, f, -eBadf)
  else if length < 0 then some (F, f, -eInval)
  else if length > f.attr.size then some (F, f, -eFbig)
  else if !fsInodePermission p f.attr fsPermWrite false then some (F, f, -ePerm)
  else
    (ext2Trunc F f length.toNat).map fun (F, f) =>
      (F, { f with attr := { f.attr with size := length.toNat } }, 0)

/-- The requests on an open regular file. -/
inductive FileReq where
  | read (nbyte : Nat)
  | write (nbyte : Nat)
  | seek (offset : Int) (whence : Nat)
  | trunc (length : Int)
  deriving DecidableEq, Repr

/-- A file system with one open regular file, and the client's end of the requests. -/
structure FileState (ρ : Type) where
  fs : Ext2Fs
  file : Ext2File
  conn : OpenFile
  req : ρ

section
variable {ρ : Type} (ch : Channel ρ) (p : Option Cred) (euid : Nat)

/-- One request: the state after it and the reply. -/
def fileStep (s : FileState ρ) : FileReq → Option (FileState ρ × Int)
  | .read nbyte =>
    (doRead ch p s.fs s.file s.conn s.req nbyte).map fun (o, r, x) =>
      ({ s with conn := o, req := r }, x)
  | .write nbyte =>
    (doWrite ch p euid s.fs s.file s.conn s.req nbyte).map fun (F, f, o, r, x) =>
      ({ fs := F, file := f, conn := o, req := r }, x)
  | .seek offset whence =>
    let (o, x) := doSeek s.file s.conn offset whence
    some ({ s with conn := o }, x)
  | .trunc length =>
    (doTrunc p s.fs s.file s.conn length).map fun (F, f, x) =>
      ({ s with fs := F, file := f }, x)

/-- A run of requests: the state after them and their replies, or `none` at a panic. -/
def fileRun : FileState ρ → List FileReq → Option (FileState ρ × List Int)
  | s, [] => some (s, [])
  | s, q :: qs =>
    (fileStep ch p euid s q).bind fun (s, x) =>
      (fileRun s qs).map fun (s, xs) => (s, x :: xs)

end

/-! ## A hole, and bytes past a truncation -/

/-- A file system of 4 KiB blocks with one group of 1024 blocks and 32 inodes: the superblock
at block 0, the descriptor table at 1, the bitmaps at 2 and 3, the inode table at 4. Blocks 0 to
4 and inodes 1 and 2 are in use, and the free counts are those of the clear bits. -/
def fileFs : Ext2Fs where
  sb := ⟨32, 1024, 0, 1019, 30, 2, 1024, 32⟩
  gds _ := ⟨2, 3, 4, 1019, 30⟩
  disk blk i :=
    if blk = 2 ∧ i = 0 then 0x1f
    else if blk = 3 ∧ i = 0 then 3
    else 0

/-- An empty regular file of the superuser, with no blocks. -/
def emptyFile : Ext2File := ⟨⟨0o100644, 0, 0, 0⟩, fun _ => 0, 0⟩

/-- On an empty file opened `O_RDWR` by the superuser: a seek to 8192 and a one-byte write make
block 2 and leave blocks 0 and 1 holes, and a read from 0 then stops in the `k_panic` of
`ext2_read`. And ten bytes written, the file truncated to 5, a byte written at 10 and the file
read from 0 give back the bytes 6 to 10 that the truncation dropped, where zeros were due. -/
theorem file_read_hits_hole :
    (fileRun bufferChannel none 0 ⟨fileFs, emptyFile, ⟨0, oRdwr⟩, ([7], [])⟩
        [.seek 8192 seekSet, .write 1, .seek 0 seekSet]).map (·.2) = some [8192, 1, 0] ∧
    (fileRun bufferChannel none 0 ⟨fileFs, emptyFile, ⟨0, oRdwr⟩, ([7], [])⟩
        [.seek 8192 seekSet, .write 1, .seek 0 seekSet, .read 1]).isNone ∧
    (fileRun bufferChannel none 0
        ⟨fileFs, emptyFile, ⟨0, oRdwr⟩, ([1, 2, 3, 4, 5, 6, 7, 8, 9, 10, 42], [])⟩
        [.write 10, .trunc 5, .seek 10 seekSet, .write 1, .seek 0 seekSet, .read 11]).map
        (fun x => (x.2, x.1.req.2)) =
      some ([10, 0, 10, 1, 0, 11], [1, 2, 3, 4, 5, 6, 7, 8, 9, 10, 42]) := by
  decide +kernel

end Argentum.Fs
