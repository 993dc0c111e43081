import Argentum.Fs.Ext2BlockTree
import Argentum.Fs.Path

/-!
# Argentum.Fs.Ext2Symlink

Symbolic links on ext2: `ext2_symlink` and `ext2_readlink` of `kernel/fs/ext2.c`, the handler
`do_readlink` of `kernel/fs/service.c`, and how `fs_path_resolve_symlink` of `kernel/fs/path.c`
puts a target in front of the rest of a path.

A target of at most `MAX_FAST_SYMLINK_NAMELEN` bytes is kept in the sixty bytes of the inode's
id array, with its length in `size` (`ext2Symlink_fast_readlink`). A longer one goes to data
blocks through `ext2_write_data`, the loop of `ext2_write` with `vm_space_copy_in` in place of
`request_read`. That loop leaves `size` as it was (`ext2WriteLoop_grows`) and `ext2_symlink`
does not set it after, so a long target is stored with `size` 0 and its blocks. `ext2_readlink`
then reads `n` bytes of the blocks, whatever the target's length: it replies `n`, sends the
zeros of the block past the target, and stops in the `k_panic` of `ext2_read` past the last
block (`symlink_long_target_reads_past`). A fast link replies `min(size, n)`, but sends `n`
bytes from the id array and from the memory after it (`ext2Readlink_fast`).

`fs_path_resolve_symlink` asks for `PATH_MAX - 1` bytes and puts the target, a slash and the
rest in a buffer of `PATH_MAX` bytes (`fsPathResolveSymlink_of_lt`). For a target of
`PATH_MAX - 1` bytes that does not end in a slash, followed by a rest that is not empty, the
slash brings `r` to `PATH_MAX`, and the count `PATH_MAX - 1 - r` of the `strncpy` after it
wraps (`fsPathResolveSymlink_wraps`).
-/

namespace Argentum.Fs

/-- `MAX_FAST_SYMLINK_NAMELEN`: the bytes of the id array of an inode. -/
def maxFastSymlinkNamelen : Nat := 60

/-- `S_IFLNK`. -/
def sIflnk : Nat := 0o120000

/-- `S_ISLNK(mode)`. -/
def sIslnk (mode : Nat) : Bool := mode &&& sIfmt == sIflnk

/-- The inode that `ext2_inode_create` hands over: `ext2_inode_init` zeroes it and sets its
mode, and the owner is set after. -/
def ext2NewInode (mode uid gid : Nat) : Ext2File := ⟨⟨mode, uid, gid, 0⟩, fun _ => 0, 0⟩

/-- The id array `extra->block` as memory: the ids as 32-bit words. -/
def blockWords (f : Ext2File) (k : Nat) : BitVec 32 := BitVec.ofNat 32 (f.block k)

/-- The `n` bytes that `request_write(req, extra->block, n)` reads: the sixty bytes of the id
array, and after them the memory that follows the inode's `struct Ext2InodeExtra`, `after`. -/
def blockArrayBytes (f : Ext2File) (after : Nat → UInt8) (n : Nat) : List UInt8 :=
  (List.range n).map fun i =>
    if i < maxFastSymlinkNamelen then WordBytes.get (blockWords f) i
    else after (i - maxFastSymlinkNamelen)

section
variable {ρ : Type} (ch : Channel ρ)

/-- `ext2_write_data(process, inode, va, nbyte, off)`: the loop of `ext2_write`, with
`vm_space_copy_in` from `va`, which `ch` gives, in place of `request_read`. -/
def ext2WriteData (euid : Nat) (F : Ext2Fs) (f : Ext2File) (r : ρ) (nbyte off : Nat) :
    Option (Ext2Fs × Ext2File × ρ × Int) :=
  ext2Write ch euid F f r nbyte off

/-- `ext2_readlink(req, inode, n)`, where `after` is the memory after the inode's id array. It
asserts that the inode is a link. -/
def ext2Readlink (after : Nat → UInt8) (F : Ext2Fs) (f : Ext2File) (r : ρ) (n : Nat) :
    Option (ρ × Int) :=
  if !sIslnk f.attr.mode then none
  else if f.attr.size ≤ maxFastSymlinkNamelen ∧ f.blocks = 0 then
    let nread := min f.attr.size n
    match ch.write r (blockArrayBytes f after n) with
    | none => none
    | some (r, w) => if w < 0 then some (r, w) else some (r, nread)
  else ext2Read ch F f r n 0

/-- `do_readlink(fs, req, msg)` on the ext2 inode `f`, for the process `p`. -/
def doReadlink (p : Option Cred) (after : Nat → UInt8) (F : Ext2Fs) (f : Ext2File) (r : ρ)
    (nbyte : Nat) : Option (ρ × Int) :=
  if !fsInodePermission p f.attr fsPermRead false then some (r, -ePerm)
  else if !sIslnk f.attr.mode then some (r, -eInval)
  else ext2Readlink ch after F f r nbyte

end

/-- `ext2_symlink(process, dir, name, mode, link_path, &ip)` once `ext2_inode_create` has made
the inode `ip`, for a process with effective user `euid`. `link_path` is in kernel memory, where
`vm_space_copy_in` copies from without fail: the bytes of the target go to the id array if
there are at most `MAX_FAST_SYMLINK_NAMELEN` of them, and to data blocks otherwise. -/
def ext2Symlink (euid : Nat) (F : Ext2Fs) (ip : Ext2File) (target : List UInt8) :
    Option (Ext2Fs × Ext2File × Int) :=
  if target.length ≤ maxFastSymlinkNamelen then
    let words := WordBytes.setRange (blockWords ip) 0 target
    let ip' := { ip with attr := { ip.attr with size := target.length } }
    some (F, { ip' with block := fun k => (words k).toNat }, 0)
  else
    (ext2WriteData bufferChannel euid F ip (target, []) target.length 0).map
      fun (F, ip, _, w) => (F, ip, if w < 0 then w else 0)

/-! ## Reading a link -/

section
variable {ρ : Type} (ch : Channel ρ)

/-- `ext2_readlink` on an inode that is not a fast link reads `n` bytes of its blocks. -/
theorem ext2Readlink_slow (after : Nat → UInt8) {F : Ext2Fs} {f : Ext2File}
    (hlnk : sIslnk f.attr.mode = true)
    (hslow : ¬(f.attr.size ≤ maxFastSymlinkNamelen ∧ f.blocks = 0)) (r : ρ) (n : Nat) :
    ext2Readlink ch after F f r n = ext2Read ch F f r n 0 := by
  unfold ext2Readlink
  rw [hlnk, Bool.not_true, if_neg Bool.false_ne_true, if_neg hslow]

/-- `do_readlink` for a process that may read the link replies what `ext2_readlink` does. -/
theorem doReadlink_of_perm (p : Option Cred) (after : Nat → UInt8) {F : Ext2Fs}
    {f : Ext2File} (hperm : fsInodePermission p f.attr fsPermRead false = true)
    (hlnk : sIslnk f.attr.mode = true) (r : ρ) (nbyte : Nat) :
    doReadlink ch p after F f r nbyte = ext2Readlink ch after F f r nbyte := by
  unfold doReadlink
  rw [hperm, hlnk, Bool.not_true, if_neg Bool.false_ne_true, if_neg Bool.false_ne_true]

end

/-- On a fast link, `ext2_readlink` replies `min(size, n)` but sends `n` bytes: those of the id
array, and past its sixty bytes the memory after it. -/
theorem ext2Readlink_fast (after : Nat → UInt8) {F : Ext2Fs} (f : Ext2File)
    (hlnk : sIslnk f.attr.mode = true)
    (hfast : f.attr.size ≤ maxFastSymlinkNamelen ∧ f.blocks = 0)
    (r : List UInt8 × List UInt8) (n : Nat) :
    ext2Readlink bufferChannel after F f r n =
      some ((r.1, r.2 ++ blockArrayBytes f after n), ((min f.attr.size n : Nat) : Int)) := by
  unfold ext2Readlink
  rw [hlnk, Bool.not_true, if_neg Bool.false_ne_true, if_pos hfast]
  simp [bufferChannel]

/-- The bytes of an id array into which `target` was written from 0 begin with the target. -/
theorem blockArrayBytes_setRange (ip : Ext2File) (target : List UInt8)
    (hfast : target.length ≤ maxFastSymlinkNamelen) (attr : InodeAttr) (blocks : Nat)
    (after : Nat → UInt8) (n : Nat) :
    (blockArrayBytes ⟨attr, fun k => (WordBytes.setRange (blockWords ip) 0 target k).toNat,
      blocks⟩ after n).take (min target.length n) = target.take n := by
  apply List.ext_getElem
  · simp only [List.length_take, blockArrayBytes, List.length_map, List.length_range]
    omega
  · intro i h₁ h₂
    simp only [List.length_take, blockArrayBytes, List.length_map, List.length_range] at h₁
    have hi : i < target.length := by omega
    simp only [List.getElem_take, blockArrayBytes, List.getElem_map, List.getElem_range]
    rw [if_pos (by omega)]
    unfold blockWords
    simp only [BitVec.ofNat_toNat, BitVec.setWidth_eq]
    rw [WordBytes.get_setRange, if_pos (by omega), Nat.sub_zero, List.getD_eq_getElem _ _ hi]

/-- A target of at most `MAX_FAST_SYMLINK_NAMELEN` bytes is stored in the id array with its
length in `size`: `ext2_readlink` of `n` bytes replies `min(L, n)` and sends the target's first
bytes, and after them, if `n` is larger, the rest of the id array and the memory after it. -/
theorem ext2Symlink_fast_readlink (after : Nat → UInt8) (euid : Nat) (F : Ext2Fs)
    (ip : Ext2File) (target : List UInt8) (hlnk : sIslnk ip.attr.mode = true)
    (hblocks : ip.blocks = 0) (hfast : target.length ≤ maxFastSymlinkNamelen)
    (r : List UInt8 × List UInt8) (n : Nat) :
    ∃ f, ext2Symlink euid F ip target = some (F, f, 0) ∧
      ∃ rest, ext2Readlink bufferChannel after F f r n =
        some ((r.1, r.2 ++ (target.take n ++ rest)), ((min target.length n : Nat) : Int)) := by
  let f : Ext2File := ⟨{ ip.attr with size := target.length },
    fun k => (WordBytes.setRange (blockWords ip) 0 target k).toNat, ip.blocks⟩
  have hs : ext2Symlink euid F ip target = some (F, f, 0) := by
    unfold ext2Symlink
    rw [if_pos hfast]
  refine ⟨f, hs, (blockArrayBytes f after n).drop (min target.length n), ?_⟩
  rw [ext2Readlink_fast after f hlnk ⟨hfast, hblocks⟩]
  -- the first `min L n` bytes read back from the id array are the target's
  have hbytes := blockArrayBytes_setRange ip target hfast
    { ip.attr with size := target.length } ip.blocks after n
  rw [← hbytes, List.take_append_drop]

/-! ## Following a link -/

/-- `fs_path_resolve_symlink` on a reply of `r` bytes, with room for a slash after them: the
target, a slash if it does not end in one and a rest follows, and the rest, cut to
`PATH_MAX - 1` characters. -/
theorem fsPathResolveSymlink_of_lt {S : FsService} {ino r : Nat} {target rest : List Char}
    (hr : S.readlink ino = ((r : Int), target)) (h0 : 0 < r) (hlt : r + 1 < pathMax)
    (hlen : r ≤ target.length) :
    fsPathResolveSymlink S ino rest =
      let path := target.take r
      let sep := if path.getLast? ≠ some '/' ∧ rest ≠ [] then ['/'] else []
      some (((path ++ sep).length : Int), (path ++ sep ++ rest).take (pathMax - 1)) := by
  unfold fsPathResolveSymlink
  rw [hr]
  have hpath : (target.take r).length = r := List.length_take_of_le hlen
  dsimp only
  rw [if_neg (by omega), if_neg (by omega), Int.toNat_natCast]
  by_cases hc : (target.take r).getLast? ≠ some '/' ∧ rest ≠ []
  · rw [if_pos hc, if_pos hc]
    have hcount :
        (((pathMax : Int) - 1 - ((r : Int) + 1)) % 2 ^ 32).toNat = pathMax - 1 - (r + 1) := by
      unfold pathMax at hlt ⊢
      omega
    dsimp only
    have hl : (target.take r ++ ['/']).length = r + 1 := by
      rw [List.length_append, hpath, List.length_singleton]
    have ht : (target.take r ++ ['/']).take (pathMax - 1) = target.take r ++ ['/'] :=
      List.take_of_length_le (by rw [hl]; omega)
    rw [hcount, if_neg (by unfold pathMax at hlt ⊢; omega), List.take_append, ht, hl]
    rfl
  · rw [if_neg hc, if_neg hc]
    have hcount : (((pathMax : Int) - 1 - (r : Int)) % 2 ^ 32).toNat = pathMax - 1 - r := by
      unfold pathMax at hlt ⊢
      omega
    dsimp only
    have ht : (target.take r).take (pathMax - 1) = target.take r :=
      List.take_of_length_le (by rw [hpath]; omega)
    rw [hcount, if_neg (by unfold pathMax at hlt ⊢; omega), List.append_nil, List.take_append, ht,
      hpath]

/-- A reply of `PATH_MAX - 1` bytes that do not end in a slash, and a rest that is not empty: the
slash brings `r` to `PATH_MAX`, `PATH_MAX - 1 - r` wraps, and `strncpy` writes past the buffer. -/
theorem fsPathResolveSymlink_wraps {S : FsService} {ino : Nat} {target rest : List Char}
    (hr : S.readlink ino = ((pathMax : Int) - 1, target))
    (hlast : (target.take (pathMax - 1)).getLast? ≠ some '/') (hrest : rest ≠ []) :
    fsPathResolveSymlink S ino rest = none := by
  unfold fsPathResolveSymlink
  rw [hr]
  have hr' : ((pathMax : Int) - 1).toNat = pathMax - 1 := by decide
  dsimp only
  rw [if_neg (by decide), if_neg (by decide), hr',
    if_pos (show (target.take (pathMax - 1)).getLast? ≠ some '/' ∧ rest ≠ [] from
      ⟨hlast, hrest⟩)]
  dsimp only
  rw [if_pos (by decide)]

/-! ## A long target -/

/-- A target longer than `MAX_FAST_SYMLINK_NAMELEN` is stored in data blocks with `size` 0.
`ext2_readlink` of `n` bytes then sends the first `n` bytes of the blocks and replies `n`,
whatever the target's length, or stops in the `k_panic` of `ext2_read` at a byte with no
block. -/
theorem symlink_long_target_reads_past (after : Nat → UInt8) (euid : Nat) (F : Ext2Fs)
    (mode uid gid : Nat) (target : List UInt8) (hlnk : sIslnk mode = true)
    (hlong : maxFastSymlinkNamelen < target.length) {F' : Ext2Fs} {f : Ext2File}
    (hs : ext2Symlink euid F (ext2NewInode mode uid gid) target = some (F', f, 0))
    (n : Nat) (r : List UInt8 × List UInt8) :
    f.attr.size = 0 ∧
      ext2Readlink bufferChannel after F' f r n =
        ((List.range n).mapM fun k => ext2FileByte F' f k).map
          fun bs => ((r.1, r.2 ++ bs), (n : Int)) := by
  unfold ext2Symlink ext2WriteData ext2Write at hs
  rw [if_neg (by omega)] at hs
  obtain ⟨⟨F₁, f₁, r₁, w⟩, hw, hx⟩ := Option.map_eq_some_iff.mp hs
  simp only [Prod.mk.injEq] at hx
  obtain ⟨rfl, rfl, hw0⟩ := hx
  -- the write succeeded: it did not touch `size`, and it counted a block
  have hok : 0 ≤ w := by
    by_contra hneg
    rw [if_pos (by omega)] at hw0
    omega
  have hattr : f₁.attr = (ext2NewInode mode uid gid).attr :=
    (ext2WriteLoop_grows bufferChannel hw).1
  have hblocks : 0 < f₁.blocks :=
    ext2WriteLoop_blocks_pos bufferChannel rfl (by omega) hw hok
  refine ⟨by rw [hattr]; rfl, ?_⟩
  rw [ext2Readlink_slow bufferChannel after (by rw [hattr]; exact hlnk) (by omega), ext2Read,
    ext2ReadLoop_buffer _ _ _ _ _ _ (Nat.zero_le _)]
  simp only [Nat.sub_zero, Nat.zero_add]

/-- On the 4 KiB blocks of `fileFs`, a link to 61 `a`s. -/
theorem symlink_long_target_reads_past_fileFs :
    ∃ F' f, ext2Symlink 0 fileFs (ext2NewInode 0o120777 0 0) (List.replicate 61 97) =
        some (F', f, 0) ∧
      f.attr.size = 0 ∧
      ext2Readlink bufferChannel (fun _ => 0) F' f ([], []) 100 =
        ((List.range 100).mapM fun k => ext2FileByte F' f k).map
          fun bs => (([], [] ++ bs), (100 : Int)) := by
  have h : (ext2Symlink 0 fileFs (ext2NewInode 0o120777 0 0) (List.replicate 61 97)).map
      (·.2.2) = some 0 := by
    decide +kernel
  obtain ⟨⟨F', f, w⟩, hs, rfl⟩ := Option.map_eq_some_iff.mp h
  exact ⟨F', f, hs, symlink_long_target_reads_past (fun _ => 0) 0 fileFs 0o120777 0 0 _
    (by decide) (by decide) hs 100 ([], [])⟩

example :
    ((ext2Symlink 0 fileFs (ext2NewInode 0o120777 0 0) (List.replicate 61 97)).bind
      fun (F', f, _) => (ext2Readlink bufferChannel (fun _ => 0) F' f ([], []) 100).map
        fun (r, w) => (w, r.2.length)) = some (100, 100) := by
  decide +kernel

end Argentum.Fs
