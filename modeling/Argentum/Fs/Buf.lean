import Mathlib.Data.List.GetD
import Mathlib.Tactic.SplitIfs
import Argentum.Lib.CacheScan

/-!
# Argentum.Fs.Buf

The buffer cache of `kernel/fs/buf.c`: the buffers that hold blocks of the block devices, on
one list `buf_cache.head` with the most recently released first, at most `BUF_CACHE_MAX_SIZE`
of them. `buf_read` gets the buffer of a block and counts a reference to it: the buffer
already there, a new one while the cache may grow, or else the last buffer of the list that
nobody references, which `buf_reuse` gives to the block.

A buffer is named by its number in the pool of buffers the cache ever allocated, and its
contents are left out: a buffer that changes block is marked not valid and is read again from
the device by the next `buf_read`. Neither `k_object_pool_get` nor the allocation of a
buffer's data (`k_malloc` of less than a page, or `page_alloc_block`) returns `NULL`: each
`k_panic`s when memory runs out, which the parameter `canAlloc = false` stands for, and the
model fails (`none`) there. So `buf_cache_grow` returns `NULL` only once the cache holds
`BUF_CACHE_MAX_SIZE` buffers.

`buf_cache_lookup` declares `unused` without a value and stores it into `*unused_store` when no
buffer has the block, so with every buffer referenced the caller's `unused` is whatever that
local held. The model takes that value as a parameter: `none` if it happens to be `NULL`, or
the number of the buffer it happens to point to. `buf_cache_get_locked` then hands such a
buffer to `buf_reuse` in place of returning `NULL` (`bufCacheGetLocked_reuses_referenced`).
-/

namespace Argentum.Fs

/-- `BUF_CACHE_MAX_SIZE`. -/
def bufCacheMaxSize : Nat := 1024

/-- What names the block a buffer holds: `block_no`, `block_size` and `dev`. -/
structure BufKey where
  blockNo : Nat
  blockSize : Nat
  dev : Nat
  deriving DecidableEq, Repr, Inhabited

/-- `struct Buf`, without its data and mutex: `BUF_FLAGS_VALID` and `BUF_FLAGS_DIRTY` of
`_flags`, and `_ref_count`. -/
structure Buf where
  key : BufKey
  valid : Bool
  dirty : Bool
  refCount : Nat
  deriving DecidableEq, Repr, Inhabited

/-- `buf_cache`: the pool's buffers by number, the cache list and `size`. -/
structure BufCache where
  bufs : List Buf
  head : List Nat
  size : Nat
  deriving DecidableEq, Repr

/-- The buffer numbered `b`. -/
def BufCache.buf (C : BufCache) (b : Nat) : Buf := C.bufs.getD b default

/-- The cache with buffer `b` replaced. -/
def BufCache.setBuf (C : BufCache) (b : Nat) (x : Buf) : BufCache :=
  { C with bufs := C.bufs.set b x }

/-- `buf_cache_insert(buf)`: the buffer to the front of the list. -/
def bufCacheInsert (C : BufCache) (b : Nat) : BufCache :=
  { C with head := b :: C.head.erase b }

/-- `buf_alloc(block_no, block_size, dev)`: a new buffer of the pool, on the cache list. It
asserts that the cache is not full, and the allocators panic when memory runs out. -/
def bufAlloc (C : BufCache) (key : BufKey) (canAlloc : Bool) : Option (BufCache × Nat) :=
  if C.size ≥ bufCacheMaxSize then none
  else if !canAlloc then none
  else
    let b := C.bufs.length
    let C := { C with bufs := C.bufs ++ [⟨key, false, false, 0⟩] }
    some (bufCacheInsert C b, b)

/-- `buf_cache_grow(block_no, block_size, dev)`: `NULL` (`some none`) once the cache is full. -/
def bufCacheGrow (C : BufCache) (key : BufKey) (canAlloc : Bool) :
    Option (Option (BufCache × Nat)) :=
  if C.size ≥ bufCacheMaxSize then some none
  else
    match bufAlloc C key canAlloc with
    | none => none
    | some (C, b) => some (some ({ bufCacheInsert C b with size := C.size + 1 }, b))

/-- `buf_cache_lookup(block_no, block_size, dev, &unused)`: the buffer of the block, or what it
stores into `*unused_store`, the last buffer with no reference. Its local `unused` starts out
as `junk`. -/
def bufCacheLookup (C : BufCache) (key : BufKey) (junk : Option Nat) : Nat ⊕ Option Nat :=
  CacheScan.scan (fun b => (C.buf b).key == key) (fun b => (C.buf b).refCount == 0) C.head junk

/-- `buf_reuse(b, block_no, block_size, dev)`: the buffer given to another block, with new data
if the block size differs, whose allocation panics when memory runs out. -/
def bufReuse (C : BufCache) (b : Nat) (key : BufKey) (canAlloc : Bool) : Option (BufCache × Nat) :=
  if (C.buf b).key.blockSize ≠ key.blockSize ∧ !canAlloc then none
  else some (C.setBuf b { C.buf b with key, valid := false, dirty := false }, b)

/-- `buf_cache_get_locked(block_no, block_size, dev)`: the buffer for the block, or `NULL`
(`some none`); `none` is a failed `k_assert` or a `k_panic`. -/
def bufCacheGetLocked (C : BufCache) (key : BufKey) (junk : Option Nat) (canAlloc : Bool) :
    Option (BufCache × Option Nat) :=
  match bufCacheLookup C key junk with
  | .inl b => some (C, some b)
  | .inr unused =>
    match bufCacheGrow C key canAlloc with
    | none => none
    | some (some (C, b)) => some (C, some b)
    | some none =>
      match unused with
      | none => some (C, none)
      | some u => (bufReuse C u key canAlloc).map fun x => (x.1, some x.2)

/-- `buf_cache_get(block_no, block_size, dev)`: `buf_cache_get_locked`, and a reference to the
buffer it returns. -/
def bufCacheGet (C : BufCache) (key : BufKey) (junk : Option Nat) (canAlloc : Bool) :
    Option (BufCache × Option Nat) :=
  (bufCacheGetLocked C key junk canAlloc).map fun
    | (C, some b) => (C.setBuf b { C.buf b with refCount := (C.buf b).refCount + 1 }, some b)
    | (C, none) => (C, none)

/-- `buf_read(block_no, block_size, dev)`: the buffer, which a read request fills if it is not
valid. -/
def bufRead (C : BufCache) (key : BufKey) (junk : Option Nat) (canAlloc : Bool) :
    Option (BufCache × Option Nat) :=
  (bufCacheGet C key junk canAlloc).map fun
    | (C, some b) => (C.setBuf b { C.buf b with valid := true }, some b)
    | (C, none) => (C, none)

/-- `buf_cache_put(buf)`: one reference less, and the buffer to the front of the list once it
has none. -/
def bufCachePut (C : BufCache) (b : Nat) : BufCache :=
  let C := C.setBuf b { C.buf b with refCount := (C.buf b).refCount - 1 }
  if (C.buf b).refCount = 0 then bufCacheInsert C b else C

/-- `buf_release(buf)`: a dirty buffer is written to the device first. It asserts that the
buffer is valid. -/
def bufRelease (C : BufCache) (b : Nat) : Option BufCache :=
  if !(C.buf b).valid then none
  else some (bufCachePut (C.setBuf b { C.buf b with dirty := false }) b)

/-- `buf_write(buf)`: mark the buffer dirty and release it. -/
def bufWrite (C : BufCache) (b : Nat) : Option BufCache :=
  bufRelease (C.setBuf b { C.buf b with dirty := true }) b

/-! ## Buffers by number -/

namespace BufCache

variable {C : BufCache} {b : Nat}

@[simp] theorem setBuf_buf_self (x : Buf) (hb : b < C.bufs.length) : (C.setBuf b x).buf b = x := by
  simp [setBuf, buf, hb]

@[simp] theorem setBuf_setBuf (x y : Buf) : (C.setBuf b x).setBuf b y = C.setBuf b y := by
  simp [setBuf]

@[simp] theorem setBuf_bufs_length (x : Buf) : (C.setBuf b x).bufs.length = C.bufs.length := by
  simp [setBuf]

end BufCache

/-! ## What `buf_cache_get_locked` returns -/

section GetLocked

variable {C C' : BufCache} {key : BufKey} {junk : Option Nat} {canAlloc : Bool} {b : Nat}

/-- `buf_cache_grow` returns `NULL` exactly when the cache is full. -/
theorem bufCacheGrow_eq_null_iff : bufCacheGrow C key canAlloc = some none ↔ bufCacheMaxSize ≤ C.size := by
  unfold bufCacheGrow bufAlloc
  by_cases hfull : C.size ≥ bufCacheMaxSize
  · simp [hfull]
  · cases canAlloc <;> simp [hfull]

/-- While some buffer of the list has no reference, `buf_cache_get_locked` returns a buffer
that holds the block, a new one, or one with no reference. -/
theorem bufCacheGetLocked_spec (hfree : ∃ x ∈ C.head, (C.buf x).refCount = 0)
    (h : bufCacheGetLocked C key junk canAlloc = some (C', some b)) :
    (C.buf b).key = key ∨ b = C.bufs.length ∨ (C.buf b).refCount = 0 := by
  obtain ⟨x, hx, hx0⟩ := hfree
  unfold bufCacheGetLocked bufCacheLookup at h
  split at h
  · -- the buffer of the block
    rename_i b' hscan
    cases h
    exact Or.inl (by simpa using (CacheScan.scan_inl hscan).2)
  · rename_i unused hscan
    obtain ⟨u, -, rfl, hu0⟩ := CacheScan.scan_free hx (by simpa using hx0) hscan
    split at h
    · simp at h
    · -- a new buffer
      rename_i C₁ b' hgrow
      simp only [Option.some.injEq, Prod.mk.injEq] at h
      obtain ⟨-, rfl⟩ := h
      simp only [bufCacheGrow, bufAlloc] at hgrow
      split_ifs at hgrow <;> simp at hgrow
      exact Or.inr (Or.inl hgrow.2.symm)
    · -- the unreferenced buffer the scan ended at
      unfold bufReuse at h
      dsimp only at h
      split_ifs at h <;> simp at h
      exact Or.inr (Or.inr (h.2 ▸ by simpa using hu0))

/-- A cache of one unreferenced buffer, asked for another block: it grows. -/
theorem bufCacheGetLocked_spec_grow :
    bufCacheGetLocked ⟨[⟨⟨0, 1024, 0⟩, true, false, 0⟩], [0], 1⟩ ⟨7, 1024, 0⟩ none true =
        some (⟨[⟨⟨0, 1024, 0⟩, true, false, 0⟩, ⟨⟨7, 1024, 0⟩, false, false, 0⟩], [1, 0], 2⟩,
          some 1) ∧
      ((BufCache.buf ⟨[⟨⟨0, 1024, 0⟩, true, false, 0⟩], [0], 1⟩ 1).key = ⟨7, 1024, 0⟩ ∨ 1 = 1 ∨
        (BufCache.buf ⟨[⟨⟨0, 1024, 0⟩, true, false, 0⟩], [0], 1⟩ 1).refCount = 0) := by
  have h : bufCacheGetLocked ⟨[⟨⟨0, 1024, 0⟩, true, false, 0⟩], [0], 1⟩ ⟨7, 1024, 0⟩ none true =
      some (⟨[⟨⟨0, 1024, 0⟩, true, false, 0⟩, ⟨⟨7, 1024, 0⟩, false, false, 0⟩], [1, 0], 2⟩,
        some 1) := by
    decide
  exact ⟨h, bufCacheGetLocked_spec ⟨0, List.mem_singleton_self _, rfl⟩ h⟩

/-- `buf_cache_get_locked` returns `NULL` exactly when the cache is full, no buffer of the list
holds the block, every one is referenced, and the uninitialized `unused` of `buf_cache_lookup`
happens to be `NULL`. -/
theorem bufCacheGetLocked_eq_null_iff :
    bufCacheGetLocked C key junk canAlloc = some (C', none) ↔
      bufCacheMaxSize ≤ C.size ∧ (∀ x ∈ C.head, (C.buf x).key ≠ key) ∧
        (∀ x ∈ C.head, (C.buf x).refCount ≠ 0) ∧ junk = none ∧ C' = C := by
  constructor
  · intro h
    unfold bufCacheGetLocked at h
    split at h
    · simp at h
    · rename_i unused hscan
      split at h
      · simp at h
      · simp at h
      · rename_i hgrow
        cases unused with
        | some u => simp at h
        | none =>
          -- no free buffer was met, so `unused` kept its first value
          have hnotfree : ∀ x ∈ C.head, (C.buf x).refCount ≠ 0 := fun x hx hx0 => by
            obtain ⟨_, _, hu, _⟩ := CacheScan.scan_free hx (by simpa using hx0) hscan
            cases hu
          obtain ⟨hmiss, hjunk | ⟨x, -, hx, -⟩⟩ := CacheScan.scan_inr hscan
          · simp only [Option.some.injEq, Prod.mk.injEq] at h
            exact ⟨bufCacheGrow_eq_null_iff.1 hgrow, fun x hx => by simpa using hmiss x hx,
              hnotfree, hjunk.symm, h.1.symm⟩
          · cases hx
  · rintro ⟨hfull, hkey, hnotfree, rfl, hC⟩
    rw [hC]
    have hscan : bufCacheLookup C key none = .inr none :=
      CacheScan.scan_of_not_free (by simpa using hkey) (by simpa using hnotfree) none
    simp [bufCacheGetLocked, hscan, bufCacheGrow_eq_null_iff.2 hfull]

/-- With every buffer of the list referenced, none holding the block and no room to grow,
`buf_cache_get_locked` gives the block the buffer that the uninitialized `unused` of
`buf_cache_lookup` points to, referenced as it is. -/
theorem bufCacheGetLocked_reuses_referenced (href : ∀ x ∈ C.head, 0 < (C.buf x).refCount)
    (hkey : ∀ x ∈ C.head, (C.buf x).key ≠ key) (hfull : bufCacheMaxSize ≤ C.size)
    (hsize : (C.buf b).key.blockSize = key.blockSize) :
    bufCacheGetLocked C key (some b) canAlloc =
      some (C.setBuf b { C.buf b with key, valid := false, dirty := false }, some b) := by
  have hscan : bufCacheLookup C key (some b) = .inr (some b) :=
    CacheScan.scan_of_not_free (by simpa using hkey)
      (fun x hx => by simpa using Nat.pos_iff_ne_zero.mp (href x hx)) (some b)
  simp [bufCacheGetLocked, hscan, bufCacheGrow_eq_null_iff.2 hfull, bufReuse, hsize]

/-- So `buf_read` hands that buffer out once more, for the new block. -/
theorem bufRead_reuses_referenced (href : ∀ x ∈ C.head, 0 < (C.buf x).refCount)
    (hkey : ∀ x ∈ C.head, (C.buf x).key ≠ key) (hfull : bufCacheMaxSize ≤ C.size)
    (hb : b < C.bufs.length) (hsize : (C.buf b).key.blockSize = key.blockSize) :
    bufRead C key (some b) canAlloc =
      some (C.setBuf b
        { C.buf b with key, valid := true, dirty := false, refCount := (C.buf b).refCount + 1 },
        some b) := by
  simp [bufRead, bufCacheGet, bufCacheGetLocked_reuses_referenced href hkey hfull hsize, hb]

end GetLocked

/-- The full cache of the failing run: buffers `0 .. 1023` hold blocks `0 .. 1023` of 1024
bytes, and a reader holds each. -/
def bufCacheHeld : BufCache :=
  ⟨(List.range bufCacheMaxSize).map fun i => ⟨⟨i, 1024, 0⟩, true, false, 1⟩,
    List.range bufCacheMaxSize, bufCacheMaxSize⟩

/-- A `buf_read` can take a buffer from a task that holds it. In the full cache
`bufCacheHeld`, a `buf_read` of block 5000, whose `buf_cache_lookup` finds its uninitialized
`unused` pointing at buffer 0, returns buffer 0, now for block 5000 with two references. -/
theorem buf_read_retargets_held_buffer :
    bufRead bufCacheHeld ⟨5000, 1024, 0⟩ (some 0) true =
      some (bufCacheHeld.setBuf 0 ⟨⟨5000, 1024, 0⟩, true, false, 2⟩, some 0) := by
  have hhead : bufCacheHeld.head = List.range bufCacheMaxSize := by simp only [bufCacheHeld]
  have hbuf : ∀ x ∈ bufCacheHeld.head, bufCacheHeld.buf x = ⟨⟨x, 1024, 0⟩, true, false, 1⟩ := by
    intro x hx
    rw [hhead, List.mem_range] at hx
    simp only [bufCacheHeld, BufCache.buf, List.getD_eq_getElem?_getD, List.getElem?_map,
      List.getElem?_range hx, Option.map_some, Option.getD_some]
  have h₀ : (0 : Nat) ∈ bufCacheHeld.head := by
    rw [hhead, List.mem_range]
    decide
  rw [bufRead_reuses_referenced (fun x hx => by simp [hbuf x hx])
    (fun x hx => by
      rw [hbuf x hx]
      rw [hhead, List.mem_range] at hx
      simp only [ne_eq, BufKey.mk.injEq, and_true]
      unfold bufCacheMaxSize at hx
      omega)
    (Nat.le_refl _) (by simp only [bufCacheHeld, List.length_map, List.length_range]; decide)
    (by rw [hbuf 0 h₀])]
  rw [hbuf 0 h₀]

end Argentum.Fs
