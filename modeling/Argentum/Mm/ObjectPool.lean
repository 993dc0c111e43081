import Argentum.Mm.Page

/-!
# Argentum.Mm.ObjectPool

The **slab allocator** of `kernel/mm/object_pool.c`: object pools that cut page blocks
from the page allocator into equal blocks, after Bonwick's slab allocator.

A pool keeps its slabs on three lists by how many of their `slab_capacity` blocks are in
use: `slabs_empty` (all of them), `slabs_partial` and `slabs_full` (none; the source calls
a slab "full" when it is full of free blocks). A slab threads its free blocks through an
array of tags, `tags[i]` standing for the block at `data + i * block_size`; the chain
starts at `slab->free`. Each page of a slab's page block points back at the slab
(`page->slab`), which is how `k_object_pool_put` and `k_free` find the slab of an object.

Pools, slabs and page descriptors are named by numbers: a pool or slab number stands for
the pointer to its descriptor, and a page number is an index into `pages`. Addresses are
physical (`page2kva` is `page * PAGE_SIZE`): the kernel's virtual base `0x80000000` is a
multiple of every block size, so no rounding below depends on it.

Every `k_assert` and `k_panic` is a failure (`none`), and so is a division by a zero
`block_size`. The page allocator is the environment: a slab's page block is the `page`
argument of `k_object_pool_get`, and the descriptor that an off-slab pool takes from
`k_malloc` is the flag `descOk` (whether that call returned).

Not modelled (see `MODEL_MAP.json`): the spinlocks, the constructor and destructor
callbacks and `obj_size` (passed only to them), `k_object_pool_destroy` and slab
destruction, the pool name and the global list of pools.
-/

namespace Argentum.Mm

/-! ## Sizes and rounding -/

/-- `sizeof(uintptr_t)` on both 32-bit ports. -/
def uintptrSize : Nat := 4

/-- `sizeof(struct KObjectSlab)`: a list link of two pointers, three pointers and
`used_count`. -/
def kObjectSlabSize : Nat := 24

/-- `sizeof(struct KObjectTag)`. -/
def kObjectTagSize : Nat := 4

/-- `PAGE_TAG_SLAB`. -/
def pageTagSlab : Nat := 0xABCD0002

/-- `ROUND_DOWN(x, n)`. -/
def roundDown (x n : Nat) : Nat := x - x % n

/-- `ROUND_UP(x, n)`. -/
def roundUp (x n : Nat) : Nat := roundDown (x + n - 1) n

/-! ## Descriptors -/

/-- `struct KObjectPool`: the fields the allocator reads. -/
structure KObjectPool where
  /-- `flags & K_OBJECT_POOL_OFF_SLAB`: descriptor and tags live outside the slab. -/
  offSlab : Bool
  /-- `slabs_empty`, front to back. -/
  slabsEmpty : List Nat
  /-- `slabs_partial`. -/
  slabsPartial : List Nat
  /-- `slabs_full`. -/
  slabsFull : List Nat
  slabCapacity : Nat
  slabPageOrder : Nat
  blockSize : Nat
  blockAlign : Nat
  colorMax : Nat
  colorNext : Nat
  deriving Inhabited

/-- `struct KObjectSlab`. -/
structure KObjectSlab where
  /-- `slab->pool`. -/
  pool : Nat
  data : Nat
  /-- `slab->free`, as a tag index. -/
  free : Option Nat
  usedCount : Nat
  /-- `tags[i].next`, as tag indices. -/
  tags : Nat → Option Nat
  deriving Inhabited

/-- The fields of `struct Page` the allocator reads and writes. -/
structure PageDesc where
  /-- `page->slab`, as a slab number. -/
  slab : Option Nat
  refCount : Nat
  debugTag : Nat
  deriving Inhabited, DecidableEq

/-- All pool, slab and page descriptors. Pools `0 .. poolCount` and slabs
`0 .. slabCount` have been created. -/
structure PoolState where
  pools : Nat → KObjectPool
  poolCount : Nat
  slabs : Nat → KObjectSlab
  slabCount : Nat
  pages : Nat → PageDesc

namespace KObjectPool

/-- `k_list_remove(&slab->link)`: unlink the slab from whichever list holds it. -/
def unlink (P : KObjectPool) (sid : Nat) : KObjectPool :=
  { P with
    slabsEmpty := P.slabsEmpty.erase sid
    slabsPartial := P.slabsPartial.erase sid
    slabsFull := P.slabsFull.erase sid }

/-- `k_list_remove`, then `k_list_add_back(&pool->slabs_empty, ...)`. -/
def moveToEmpty (P : KObjectPool) (sid : Nat) : KObjectPool :=
  { P.unlink sid with slabsEmpty := P.slabsEmpty.erase sid ++ [sid] }

/-- `k_list_remove`, then `k_list_add_back(&pool->slabs_partial, ...)`. -/
def moveToPartialBack (P : KObjectPool) (sid : Nat) : KObjectPool :=
  { P.unlink sid with slabsPartial := P.slabsPartial.erase sid ++ [sid] }

/-- `k_list_remove`, then `k_list_add_front(&pool->slabs_partial, ...)`. -/
def moveToPartialFront (P : KObjectPool) (sid : Nat) : KObjectPool :=
  { P.unlink sid with slabsPartial := sid :: P.slabsPartial.erase sid }

/-- `k_list_remove`, then `k_list_add_front(&pool->slabs_full, ...)`. -/
def moveToFullFront (P : KObjectPool) (sid : Nat) : KObjectPool :=
  { P.unlink sid with slabsFull := sid :: P.slabsFull.erase sid }

/-- The bytes at the end of a slab's page block that hold the on-slab descriptor and
tags: `extra_size` of `k_object_pool_slab_create`, and nothing for an off-slab pool. -/
def onSlabSize (P : KObjectPool) : Nat :=
  if P.offSlab then 0 else kObjectSlabSize + P.slabCapacity * kObjectTagSize

end KObjectPool

/-! ## `k_object_pool_init` -/

/-- `extra` and `extra_per_block` of the layout loop. -/
def kObjectPoolExtra (offSlab : Bool) : Nat × Nat :=
  if offSlab then (0, 0) else (kObjectSlabSize, kObjectTagSize)

/-- One round of the layout loop: `slab_capacity` and `wastage` for a slab of
`PAGE_SIZE << order` bytes. -/
def kObjectPoolLayout (offSlab : Bool) (blockSize order : Nat) : Nat × Nat :=
  let total := pageSize <<< order
  let extra := (kObjectPoolExtra offSlab).1
  let extraPerBlock := (kObjectPoolExtra offSlab).2
  let slabCapacity := (total - extra) / (blockSize + extraPerBlock)
  (slabCapacity, total - slabCapacity * (blockSize + extraPerBlock) - extra)

/-- The layout loop: the first order up to `PAGE_ORDER_MAX` that wastes at most an eighth
of the slab; `none` is `-EINVAL`. -/
def kObjectPoolSlabOrder (offSlab : Bool) (blockSize : Nat) : Option Nat :=
  (List.range (pageOrderMax + 1)).find? fun order =>
    (kObjectPoolLayout offSlab blockSize order).2 * 8 ≤ pageSize <<< order

/-- `k_object_pool_init(pool, name, size, align, ...)`: the new pool, with no slabs, or
`none` for `-EINVAL`. -/
def kObjectPoolInit (size align : Nat) : Option KObjectPool :=
  if size < align then none
  else if align ≠ 0 ∧ pageSize % align ≠ 0 then none
  else
    let align := if align ≠ 0 then roundUp align uintptrSize else uintptrSize
    let offSlab := decide (pageSize / 8 < size)
    let blockSize := roundUp size align
    (kObjectPoolSlabOrder offSlab blockSize).map fun order =>
      { offSlab
        slabsEmpty := []
        slabsPartial := []
        slabsFull := []
        slabCapacity := (kObjectPoolLayout offSlab blockSize order).1
        slabPageOrder := order
        blockSize
        blockAlign := align
        colorMax := (kObjectPoolLayout offSlab blockSize order).2
        colorNext := 0 }

/-! ## Page descriptors -/

/-- `page_assert(page, order, tag)`: the `2 ^ order` descriptors from `page` carry `tag`
and the first one is referenced. -/
def pageAssert (pages : Nat → PageDesc) (page order tag : Nat) : Bool :=
  (List.range (2 ^ order)).all (fun o => (pages (page + o)).debugTag == tag) &&
    (pages page).refCount != 0

/-- The tagging loop that ends `page_alloc_block(order, flags, tag)`: each page of the
block must be untagged, and gets `tag`. -/
def pageAllocBlockTag (pages : Nat → PageDesc) (page order tag : Nat) :
    Option (Nat → PageDesc) :=
  if (List.range (2 ^ order)).all (fun o => (pages (page + o)).debugTag == 0) then
    some fun q => if page ≤ q ∧ q < page + 2 ^ order then { pages q with debugTag := tag }
      else pages q
  else none

/-! ## Slabs -/

/-- `object_to_tag`: the index of the tag of the block at `obj`. -/
def objectToTag (slab : KObjectSlab) (blockSize obj : Nat) : Option Nat :=
  if blockSize = 0 then none else some ((obj - slab.data) / blockSize)

/-- `tag_to_object`: the block of tag `tag`. -/
def tagToObject (slab : KObjectSlab) (blockSize tag : Nat) : Nat :=
  slab.data + blockSize * tag

/-- The loop of `k_object_pool_slab_create` that puts `n` blocks, from the one at `p`, on
the free tag chain, asserting after each that the blocks end by `slabEnd`. -/
def kObjectPoolSlabInitObjects (blockSize slabEnd : Nat) :
    Nat → Nat → KObjectSlab → Option KObjectSlab
  | 0, _, slab => some slab
  | n + 1, p, slab =>
    match objectToTag slab blockSize p with
    | none => none
    | some tag =>
      if p + blockSize ≤ slabEnd then
        kObjectPoolSlabInitObjects blockSize slabEnd n (p + blockSize)
          { slab with tags := Function.update slab.tags tag slab.free, free := some tag }
      else none

/-- `k_object_pool_slab_create(pool)` on the block at `page` from
`page_alloc_block(slab_page_order, 0, PAGE_TAG_SLAB)`: stamp the block's pages, place the
descriptor, colour the data, chain every block and put the slab on `slabs_full`. Returns
the new slab's number. -/
def kObjectPoolSlabCreate (S : PoolState) (p page : Nat) (descOk : Bool) :
    Option (PoolState × Nat) :=
  let pool := S.pools p
  let order := pool.slabPageOrder
  match pageAllocBlockTag S.pages page order pageTagSlab with
  | none => none
  | some pages =>
    let data := page * pageSize
    -- an off-slab descriptor comes from `k_malloc`; an on-slab one ends the block
    let slabEnd := data + (pageSize <<< order) - pool.onSlabSize
    if pool.offSlab ∧ descOk = false then none
    else
      let sid := S.slabCount
      let pages := fun q =>
        if page ≤ q ∧ q < page + 2 ^ order then { pages q with slab := some sid } else pages q
      let pages := Function.update pages page
        { pages page with refCount := (pages page).refCount + 1 }
      let colorNext := if pool.colorNext + pool.blockAlign > pool.colorMax then 0
        else pool.colorNext + pool.blockAlign
      match kObjectPoolSlabInitObjects pool.blockSize slabEnd pool.slabCapacity
          (data + pool.colorNext)
          { pool := p, data := data + pool.colorNext, free := none, usedCount := 0,
            tags := fun _ => none } with
      | none => none
      | some slab =>
        some ({ S with
          pools := Function.update S.pools p
            { pool with colorNext, slabsFull := pool.slabsFull ++ [sid] }
          slabs := Function.update S.slabs sid slab
          slabCount := sid + 1
          pages }, sid)

/-- `k_object_pool_slab_get(slab)`: take the head of the free tag chain; a slab whose
last block goes moves to `slabs_empty`. Returns the block. -/
def kObjectPoolSlabGet (S : PoolState) (sid : Nat) : Option (PoolState × Nat) :=
  let slab := S.slabs sid
  let pool := S.pools slab.pool
  if pageAssert S.pages (slab.data / pageSize) pool.slabPageOrder pageTagSlab ∧
      slab.usedCount < pool.slabCapacity then
    match slab.free with
    | none => none
    | some tag =>
      let slab' := { slab with free := slab.tags tag, usedCount := slab.usedCount + 1 }
      let S' := { S with slabs := Function.update S.slabs sid slab' }
      if slab'.usedCount = pool.slabCapacity then
        if slab'.free = none then
          some ({ S' with pools := Function.update S.pools slab.pool (pool.moveToEmpty sid) },
            tagToObject slab' pool.blockSize tag)
        else none
      else some (S', tagToObject slab' pool.blockSize tag)
  else none

/-- `k_object_pool_slab_put(slab, obj)`: link the object's tag in front of the free
chain; a slab that becomes unused moves to the front of `slabs_full`, one that was in
full use to the front of `slabs_partial`. -/
def kObjectPoolSlabPut (S : PoolState) (sid obj : Nat) : Option PoolState :=
  let slab := S.slabs sid
  let pool := S.pools slab.pool
  if 0 < slab.usedCount ∧
      pageAssert S.pages (slab.data / pageSize) pool.slabPageOrder pageTagSlab then
    match objectToTag slab pool.blockSize obj with
    | none => none
    | some tag =>
      let slab' := { slab with
        tags := Function.update slab.tags tag slab.free
        free := some tag
        usedCount := slab.usedCount - 1 }
      let pool' :=
        if slab'.usedCount = 0 then pool.moveToFullFront sid
        else if slab'.usedCount = pool.slabCapacity - 1 then pool.moveToPartialFront sid
        else pool
      some { S with
        pools := Function.update S.pools slab.pool pool'
        slabs := Function.update S.slabs sid slab' }
  else none

/-! ## The pool interface -/

/-- `k_object_pool_get(pool)`: from the first partially used slab, else from the first
unused one, else from a new slab on the block at `page`; a slab taken from `slabs_full`
or new goes to the back of `slabs_partial` first. -/
def kObjectPoolGet (S : PoolState) (p page : Nat) (descOk : Bool) :
    Option (PoolState × Nat) :=
  match (S.pools p).slabsPartial with
  | sid :: _ => kObjectPoolSlabGet S sid
  | [] =>
    let picked := match (S.pools p).slabsFull with
      | sid :: _ => some (S, sid)
      | [] => kObjectPoolSlabCreate S p page descOk
    match picked with
    | none => none
    | some (S, sid) =>
      kObjectPoolSlabGet
        { S with pools := Function.update S.pools p ((S.pools p).moveToPartialBack sid) } sid

/-- `k_object_pool_put(pool, obj)`: the slab is read from the first page of the page
block holding `obj`, found by rounding down to the pool's slab size. -/
def kObjectPoolPut (S : PoolState) (p obj : Nat) : Option PoolState :=
  let pool := S.pools p
  let page := roundDown obj (pageSize <<< pool.slabPageOrder) / pageSize
  if pageAssert S.pages page pool.slabPageOrder pageTagSlab then
    match (S.pages page).slab with
    | none => none
    | some sid => kObjectPoolSlabPut S sid obj
  else none

/-- `ANON_POOLS_LENGTH`. -/
def anonPoolsLength : Nat := 12

/-- `ANON_POOLS_MIN_SIZE`. -/
def anonPoolsMinSize : Nat := 8

/-- `k_malloc(size)` over the anonymous pools `anonPools i` of `8 << i` bytes: an object
of the smallest pool that fits, or `NULL` (`some (S, none)`) when none does. -/
def kMalloc (S : PoolState) (anonPools : Nat → Nat) (size page : Nat) (descOk : Bool) :
    Option (PoolState × Option Nat) :=
  match (List.range anonPoolsLength).find? (fun i => size ≤ anonPoolsMinSize <<< i) with
  | none => some (S, none)
  | some i => (kObjectPoolGet S (anonPools i) page descOk).map fun r => (r.1, some r.2)

/-- `ANON_POOLS_MAX_SIZE`: the block size of the largest anonymous pool. -/
def anonPoolsMaxSize : Nat := anonPoolsMinSize <<< (anonPoolsLength - 1)

/-- What a `k_malloc(size)` call comes to for callers that do not model the pools: `NULL`
(`some false`) above `ANON_POOLS_MAX_SIZE` (`kMalloc_eq_null_iff`), a block (`some true`)
while memory is left (`mem`), and otherwise the panic of `k_object_pool_get` (`none`). -/
def kMallocOk (mem : Bool) (size : Nat) : Option Bool :=
  if anonPoolsMaxSize < size then some false
  else if mem then some true else none

/-- A size the anonymous pools hold gets a block while memory is left. -/
theorem kMallocOk_of_le {size : Nat} (h : size ≤ anonPoolsMaxSize) :
    kMallocOk true size = some true := by
  rw [kMallocOk, if_neg (Nat.not_lt.mpr h), if_pos rfl]

/-- `k_free(ptr)`: the pool is read from the page holding `ptr`. -/
def kFree (S : PoolState) (ptr : Nat) : Option PoolState :=
  match (S.pages (ptr / pageSize)).slab with
  | none => none
  | some sid => kObjectPoolPut S (S.slabs sid).pool ptr

/-! ## Runs of the allocator

Clients hold the objects; a run carries them as ghost state, with the first page of each
slab's block as the page allocator handed it out. -/

/-- The allocator state with the objects handed out, as `(pool, object)`, and the page
block of each slab. -/
structure PoolSys where
  state : PoolState
  live : List (Nat × Nat)
  block : Nat → Nat

/-- What the page allocator guarantees of a block it hands to pool `p`: aligned to its
size and apart from the block of every slab. -/
def PoolSys.BlockFresh (S : PoolSys) (p page : Nat) : Prop :=
  2 ^ (S.state.pools p).slabPageOrder ∣ page ∧
    ∀ sid < S.state.slabCount, AlignedBlock.Apart page (2 ^ (S.state.pools p).slabPageOrder)
      (S.block sid) (2 ^ (S.state.pools (S.state.slabs sid).pool).slabPageOrder)

/-- One call: `k_object_pool_init` of a new pool, `k_object_pool_get` that returns, or
`k_object_pool_put` of an object handed out by that pool. -/
inductive PoolStep : PoolSys → PoolSys → Prop
  | init {S : PoolSys} {pool : KObjectPool} (size align : Nat)
      (h : kObjectPoolInit size align = some pool) :
      PoolStep S ⟨{ S.state with
        pools := Function.update S.state.pools S.state.poolCount pool
        poolCount := S.state.poolCount + 1 }, S.live, S.block⟩
  | get {S : PoolSys} {s : PoolState} {obj : Nat} (p page : Nat) (descOk : Bool)
      (hp : p < S.state.poolCount) (hfresh : S.BlockFresh p page)
      (h : kObjectPoolGet S.state p page descOk = some (s, obj)) :
      PoolStep S ⟨s, (p, obj) :: S.live, Function.update S.block S.state.slabCount page⟩
  | put {S : PoolSys} {s : PoolState} (p obj : Nat) (hlive : (p, obj) ∈ S.live)
      (h : kObjectPoolPut S.state p obj = some s) :
      PoolStep S ⟨s, S.live.erase (p, obj), S.block⟩

/-- The states reached from boot, with page descriptors `pages`, by any sequence of calls. -/
inductive PoolReachable (pages : Nat → PageDesc) : PoolSys → Prop
  | boot : PoolReachable pages ⟨⟨fun _ => default, 0, fun _ => default, 0, pages⟩, [],
      fun _ => 0⟩
  | step {S S' : PoolSys} : PoolReachable pages S → PoolStep S S' → PoolReachable pages S'

end Argentum.Mm
