import Mathlib.Data.List.GetD
import Mathlib.Tactic.SplitIfs
import Argentum.Lib.CacheScan

/-!
# Argentum.Fs.InodeCache

The inode cache of `kernel/fs/inode.c`: `INODE_CACHE_SIZE` slots on one list, the most
recently released first. `fs_inode_get` returns the slot of an inode with one more reference,
or gives the inode the last slot that nobody references; `ext2_inode_get` of
`kernel/fs/ext2.c` gives a slot it finds with no file system a new `Ext2InodeExtra`.
`fs_inode_lock` reads the inode from the disk if the slot does not hold it, and
`fs_inode_unlock` writes it back if it is dirty. Of the inode, the model keeps its link count;
the disk is the link count of each inode number, on one device.

`fs_inode_put` deletes an inode whose link count is 0 when it drops the last reference. It
reads `ref_count` with the inode's mutex held but drops its reference later, after the mutex
is released. The service's worker tasks run requests concurrently, so a put is two steps:
`fsInodePutCheck`, which runs with the mutex held, and `fsInodePutDrop`. Two puts whose checks
both run before either drop each see the other's reference, and neither deletes the inode
(`fsInodePut_checks_before_drops`).
-/

namespace Argentum.Fs

/-- `INODE_CACHE_SIZE`. -/
def inodeCacheSize : Nat := 32

/-- A slot of the cache: `ino`, `dev`, `ref_count`, `FS_INODE_VALID` and `FS_INODE_DIRTY` of
`flags`, `nlink`, whether `fs` is set, and the `Ext2InodeExtra` that `extra` points to. -/
structure Inode where
  ino : Nat
  dev : Nat
  refCount : Nat
  valid : Bool
  dirty : Bool
  nlink : Nat
  hasFs : Bool
  extra : Option Nat
  deriving DecidableEq, Repr, Inhabited

/-- `inode_cache`, the `Ext2InodeExtra`s that `k_malloc` gave out (none is ever freed), the
numbers of the inodes that `inode_delete` removed from the file system, in order, and the link
counts on the disk. -/
structure InodeCache where
  slots : List Inode
  head : List Nat
  extras : List Nat
  deleted : List Nat
  diskNlink : Nat → Nat

/-- The slot numbered `s`. -/
def InodeCache.slot (C : InodeCache) (s : Nat) : Inode := C.slots.getD s default

/-- The cache with slot `s` replaced. -/
def InodeCache.setSlot (C : InodeCache) (s : Nat) (x : Inode) : InodeCache :=
  { C with slots := C.slots.set s x }

/-- `fs_inode_cache_init()` over a disk with the link counts `diskNlink`. -/
def fsInodeCacheInit (diskNlink : Nat → Nat) : InodeCache :=
  ⟨List.replicate inodeCacheSize default, List.range inodeCacheSize, [], [], diskNlink⟩

/-- `fs_inode_get(ino, dev)`: the slot of the inode with one more reference, or the last free
slot given to it; `none` is the `k_panic` with no free slot. -/
def fsInodeGet (C : InodeCache) (ino dev : Nat) : Option (InodeCache × Nat) :=
  match CacheScan.scan (fun s => (C.slot s).ino == ino && (C.slot s).dev == dev)
      (fun s => (C.slot s).refCount == 0) C.head none with
  | .inl s => some (C.setSlot s { C.slot s with refCount := (C.slot s).refCount + 1 }, s)
  | .inr (some s) =>
    some (C.setSlot s
      { C.slot s with refCount := 1, ino, dev, hasFs := false, valid := false, dirty := false }, s)
  | .inr none => none

/-- `ext2_inode_get(fs, inum)`: a slot with no file system gets it, and a new
`Ext2InodeExtra`. -/
def ext2InodeGet (C : InodeCache) (ino : Nat) : Option (InodeCache × Nat) :=
  (fsInodeGet C ino 0).map fun (C, s) =>
    if (C.slot s).hasFs then (C, s)
    else
      let e := C.extras.length
      ({ C.setSlot s { C.slot s with hasFs := true, extra := some e } with
        extras := C.extras ++ [e] }, s)

/-- `fs_inode_duplicate(inode)`. -/
def fsInodeDuplicate (C : InodeCache) (s : Nat) : InodeCache :=
  C.setSlot s { C.slot s with refCount := (C.slot s).refCount + 1 }

/-- `fs_inode_lock(ip)`: `inode_read` of an inode the slot does not hold; a dirty slot that
does not hold it panics. -/
def fsInodeLock (C : InodeCache) (s : Nat) : Option InodeCache :=
  if (C.slot s).valid then some C
  else if (C.slot s).dirty then none
  else some (C.setSlot s { C.slot s with nlink := C.diskNlink (C.slot s).ino, valid := true })

/-- `fs_inode_unlock(ip)`: `inode_write` of a dirty inode; an inode the slot does not hold
panics. -/
def fsInodeUnlock (C : InodeCache) (s : Nat) : Option InodeCache :=
  if !(C.slot s).valid then none
  else if (C.slot s).dirty then
    let C := { C with diskNlink := Function.update C.diskNlink (C.slot s).ino (C.slot s).nlink }
    some (C.setSlot s { C.slot s with dirty := false })
  else some C

/-- What `ext2_unlink` does to the inode it unlinks, with its mutex held: one link less. -/
def inodeUnlink (C : InodeCache) (s : Nat) : InodeCache :=
  C.setSlot s { C.slot s with nlink := (C.slot s).nlink - 1, dirty := true }

/-- `fs_inode_put(inode)` up to `k_mutex_unlock`: a held inode with no links is deleted from
the file system if the reference count that the put reads is 1. A dirty inode panics. -/
def fsInodePutCheck (C : InodeCache) (s : Nat) : Option InodeCache :=
  if (C.slot s).dirty then none
  else if (C.slot s).valid ∧ (C.slot s).nlink = 0 ∧ (C.slot s).refCount = 1 then
    some { C.setSlot s { C.slot s with valid := false } with
      deleted := C.deleted ++ [(C.slot s).ino] }
  else some C

/-- The rest of `fs_inode_put(inode)`: one reference less, and the slot to the front of the
list once it has none. -/
def fsInodePutDrop (C : InodeCache) (s : Nat) : InodeCache :=
  let C := C.setSlot s { C.slot s with refCount := (C.slot s).refCount - 1 }
  if (C.slot s).refCount = 0 then { C with head := s :: C.head.erase s } else C

/-- What a worker task does to the cache next. -/
inductive InodeOp
  /-- `ext2_inode_get` of an inode. -/
  | get (ino : Nat)
  | duplicate (s : Nat)
  | lock (s : Nat)
  | unlock (s : Nat)
  | unlink (s : Nat)
  | putCheck (s : Nat)
  | putDrop (s : Nat)
  deriving DecidableEq, Repr

/-- One step of a worker task. -/
def inodeStep (C : InodeCache) : InodeOp → Option InodeCache
  | .get ino => (ext2InodeGet C ino).map Prod.fst
  | .duplicate s => some (fsInodeDuplicate C s)
  | .lock s => fsInodeLock C s
  | .unlock s => fsInodeUnlock C s
  | .unlink s => some (inodeUnlink C s)
  | .putCheck s => fsInodePutCheck C s
  | .putDrop s => some (fsInodePutDrop C s)

/-- The steps `ops` of the worker tasks, in the order they interleave. -/
def inodeRun (C : InodeCache) (ops : List InodeOp) : Option InodeCache := ops.foldlM inodeStep C

/-! ## Slots -/

@[simp] theorem InodeCache.slot_setSlot_self {C : InodeCache} {s : Nat} (hs : s < C.slots.length)
    (x : Inode) : (C.setSlot s x).slot s = x := by
  simp [InodeCache.slot, InodeCache.setSlot, List.getD_eq_getElem?_getD, hs]

@[simp] theorem InodeCache.setSlot_length (C : InodeCache) (s : Nat) (x : Inode) :
    (C.setSlot s x).slots.length = C.slots.length := by
  simp [InodeCache.setSlot]

@[simp] theorem InodeCache.setSlot_deleted (C : InodeCache) (s : Nat) (x : Inode) :
    (C.setSlot s x).deleted = C.deleted := rfl

/-! ## Puts -/

/-- A put that sees another reference deletes nothing and changes nothing. -/
theorem fsInodePutCheck_shared {C : InodeCache} {s : Nat} (hd : (C.slot s).dirty = false)
    (hr : (C.slot s).refCount ≠ 1) : fsInodePutCheck C s = some C := by
  simp [fsInodePutCheck, hd, hr]

/-- Dropping a reference leaves the deleted inodes and the slot's flags as they are. -/
theorem fsInodePutDrop_deleted (C : InodeCache) (s : Nat) :
    (fsInodePutDrop C s).deleted = C.deleted := by
  unfold fsInodePutDrop
  dsimp only
  split <;> rfl

theorem fsInodePutDrop_slot {C : InodeCache} {s : Nat} (hs : s < C.slots.length) :
    (fsInodePutDrop C s).slot s = { C.slot s with refCount := (C.slot s).refCount - 1 } := by
  unfold fsInodePutDrop
  dsimp only
  split
  · exact InodeCache.slot_setSlot_self hs _
  · exact InodeCache.slot_setSlot_self hs _

theorem fsInodePutDrop_length (C : InodeCache) (s : Nat) :
    (fsInodePutDrop C s).slots.length = C.slots.length := by
  unfold fsInodePutDrop
  dsimp only
  split <;> simp

theorem fsInodePutDrop_diskNlink (C : InodeCache) (s : Nat) :
    (fsInodePutDrop C s).diskNlink = C.diskNlink := by
  unfold fsInodePutDrop
  dsimp only
  split <;> rfl

/-- A run is its first steps, then the rest from where they left the cache. -/
theorem inodeRun_append (C : InodeCache) (ops ops' : List InodeOp) :
    inodeRun C (ops ++ ops') = (inodeRun C ops).bind fun C => inodeRun C ops' := by
  simp only [inodeRun, List.foldlM_append, Option.bind_eq_bind]

/-- Two puts of a held inode with no links and two references, whose checks both run before
either drops its reference: the inode is left with no reference, and was never deleted. -/
theorem fsInodePut_checks_before_drops {C : InodeCache} {s : Nat} (hs : s < C.slots.length)
    (hd : (C.slot s).dirty = false) (hr : (C.slot s).refCount = 2) :
    inodeRun C [.putCheck s, .putCheck s, .putDrop s, .putDrop s] =
      some (fsInodePutDrop (fsInodePutDrop C s) s) ∧
    ((fsInodePutDrop (fsInodePutDrop C s) s).slot s).refCount = 0 ∧
    (fsInodePutDrop (fsInodePutDrop C s) s).deleted = C.deleted := by
  have hcheck := fsInodePutCheck_shared hd (by omega)
  refine ⟨by simp [inodeRun, inodeStep, hcheck], ?_, ?_⟩
  · rw [fsInodePutDrop_slot (by rwa [fsInodePutDrop_length]), fsInodePutDrop_slot hs]
    simp [hr]
  · rw [fsInodePutDrop_deleted, fsInodePutDrop_deleted]

/-- An inode that two tasks hold and one of them unlinks is never deleted, when the checks of
both puts run before either drops its reference. From a cache over a disk on which inode 5 has
one link, two tasks get inode 5 (slot 31, the last free slot of the list), one locks it, unlinks
its last link and unlocks it, and then both put it, checks first. Slot 31 is left with no
reference and no inode was deleted, though the disk records no link to inode 5. -/
theorem inode_put_race_skips_delete :
    (inodeRun (fsInodeCacheInit fun i => if i = 5 then 1 else 0)
        [.get 5, .get 5, .lock 31, .unlink 31, .unlock 31, .putCheck 31, .putCheck 31,
          .putDrop 31, .putDrop 31]).map
      (fun C => ((C.slot 31).refCount, C.deleted, C.diskNlink 5)) = some (0, [], 0) := by
  -- the gets, the lock, the unlink and the unlock leave slot 31 clean, with two references
  have hpre : (inodeRun (fsInodeCacheInit fun i => if i = 5 then 1 else 0)
      [.get 5, .get 5, .lock 31, .unlink 31, .unlock 31]).map (fun C =>
        (decide (31 < C.slots.length), (C.slot 31).dirty, (C.slot 31).refCount, C.deleted,
          C.diskNlink 5)) = some (true, false, 2, [], 0) := by
    decide +kernel
  obtain ⟨C₅, h₅, hfacts⟩ := Option.map_eq_some_iff.1 hpre
  simp only [Prod.mk.injEq, decide_eq_true_eq] at hfacts
  obtain ⟨hs, hd, hr, hdel, hdisk⟩ := hfacts
  -- then the two puts, checks first
  obtain ⟨hrun, hzero, hkept⟩ := fsInodePut_checks_before_drops hs hd hr
  rw [show [InodeOp.get 5, .get 5, .lock 31, .unlink 31, .unlock 31, .putCheck 31, .putCheck 31,
      .putDrop 31, .putDrop 31] = [.get 5, .get 5, .lock 31, .unlink 31, .unlock 31] ++
      [.putCheck 31, .putCheck 31, .putDrop 31, .putDrop 31] from rfl, inodeRun_append, h₅,
    Option.bind_some, hrun]
  simp [hzero, hkept, hdel, fsInodePutDrop_diskNlink, hdisk]

end Argentum.Fs
