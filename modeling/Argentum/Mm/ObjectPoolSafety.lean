import Argentum.Mm.ObjectPoolRun

/-!
# Argentum.Mm.ObjectPoolSafety

What the slab allocator promises its clients in every reachable state, read off the run
invariant `PoolInv` of `Argentum.Mm.ObjectPoolRun`: each slab sits on the list its use count
calls for, its free chain ends and holds one tag per unused block, and the objects clients
hold are aligned blocks of a slab's data, inside the slab's page block and before the on-slab
descriptor, pairwise apart. `k_free` reads the pool of a held object back from its page, so
what `k_malloc` hands out goes back to the anonymous pool it came from.

Progress is proved beside safety: `PoolInv.kObjectPoolGet_exists` hands out a block whenever
a slab is listed or a new one can be made (`PoolSys.CanGet`), through
`kObjectPoolSlabGet_exists` on the slab it picks, and `PoolInv.kMalloc_exists` lifts that to
`k_malloc` of at most `16384` bytes.
-/

namespace Argentum.Mm

open AlignedBlock LinkedChain

variable {S : PoolSys} {p obj : Nat}

/-- The free chain of a slab is acyclic and has one tag for each unused block. -/
theorem SlabWF.chain_nodup {sid : Nat} {s : KObjectSlab} {P : KObjectPool}
    (h : SlabWF S sid s P) :
    ∃ l, Chain s.tags s.free l ∧ l.Nodup ∧ l.length = P.slabCapacity - s.usedCount := by
  obtain ⟨l, hch, hlen, -⟩ := h.chain
  exact ⟨l, hch, hch.nodup, by omega⟩

/-- A held object is an aligned block of a slab of its pool, inside the slab's data, which
lie in the slab's page block before the on-slab descriptor and tags. -/
theorem PoolInv.live_placed (hI : PoolInv S) (hmem : (p, obj) ∈ S.live) :
    ∃ sid < S.state.slabCount, (S.state.slabs sid).pool = p ∧
      (S.state.pools p).blockAlign ∣ obj ∧
      (S.state.slabs sid).data ≤ obj ∧
      obj + (S.state.pools p).blockSize ≤
        (S.state.slabs sid).data + (S.state.pools p).slabCapacity * (S.state.pools p).blockSize ∧
      S.block sid * pageSize ≤ (S.state.slabs sid).data ∧
      (S.state.slabs sid).data + (S.state.pools p).slabCapacity * (S.state.pools p).blockSize +
          (S.state.pools p).onSlabSize ≤
        (S.block sid + 2 ^ (S.state.pools p).slabPageOrder) * pageSize := by
  obtain ⟨sid, hsid, hp, t, ht, rfl⟩ := hI.live hmem
  have hw := hI.slab hsid
  rw [hp] at hw
  have hP := (hI.pool (hp ▸ hw.pool_lt)).layout
  obtain ⟨c, hdata, hac, hc⟩ := hw.color
  have hfits := hP.fits
  rw [shiftLeft_pageSize] at hfits
  have hmul : (S.state.pools p).blockSize * t + (S.state.pools p).blockSize ≤
      (S.state.pools p).slabCapacity * (S.state.pools p).blockSize :=
    Nat.mul_comm (S.state.pools p).slabCapacity _ ▸ blockSize_mul_add_le ht
  refine ⟨sid, hsid, hp, ?_, ?_, ?_, by omega, ?_⟩
  · -- the page size, the colour offset and the block size are multiples of the alignment
    unfold tagToObject
    rw [hdata]
    exact Nat.dvd_add (Nat.dvd_add (Nat.dvd_mul_left_of_dvd hP.align_dvd_page _) hac)
      (Nat.dvd_mul_right_of_dvd hP.align_dvd_block _)
  · unfold tagToObject
    omega
  · unfold tagToObject
    omega
  · rw [Nat.add_mul]
    omega

/-- Distinct held objects do not overlap. -/
theorem PoolInv.live_apart {p' obj' : Nat} (hI : PoolInv S) (hmem : (p, obj) ∈ S.live)
    (hmem' : (p', obj') ∈ S.live) (hne : (p, obj) ≠ (p', obj')) :
    Apart obj (S.state.pools p).blockSize obj' (S.state.pools p').blockSize := by
  obtain ⟨sid, hsid, rfl, t, ht, rfl⟩ := hI.live hmem
  obtain ⟨sid', hsid', rfl, t', ht', rfl⟩ := hI.live hmem'
  refine hI.tagToObject_apart hsid hsid' ht ht' fun h => hne ?_
  obtain ⟨rfl, rfl⟩ := Prod.mk.inj h
  rfl

/-- `k_free` of a held object finds its pool: the page holding the object is a page of its
slab's block, and points back at the slab. -/
theorem PoolInv.kFree_eq (hI : PoolInv S) (hmem : (p, obj) ∈ S.live) :
    kFree S.state obj = kObjectPoolPut S.state p obj := by
  obtain ⟨sid, hsid, hp, t, ht, rfl⟩ := hI.live hmem
  have hw := hI.slab hsid
  rw [hp] at hw
  obtain ⟨h₁, h₂⟩ := hw.tagToObject_mem (hI.pool (hp ▸ hw.pool_lt)).layout ht
  have hps : 0 < pageSize := by decide
  have hbs := hw.blockSize_pos
  have hlo := (Nat.le_div_iff_mul_le hps).2 h₁
  have hhi : tagToObject (S.state.slabs sid) (S.state.pools p).blockSize t / pageSize <
      S.block sid + 2 ^ (S.state.pools p).slabPageOrder :=
    (Nat.div_lt_iff_lt_mul hps).2 (by rw [Nat.add_mul]; omega)
  obtain ⟨o, ho, heq⟩ : ∃ o < 2 ^ (S.state.pools p).slabPageOrder,
      tagToObject (S.state.slabs sid) (S.state.pools p).blockSize t / pageSize =
        S.block sid + o :=
    ⟨tagToObject (S.state.slabs sid) (S.state.pools p).blockSize t / pageSize - S.block sid,
      by omega, by omega⟩
  unfold kFree
  rw [heq, (hw.pages o ho).1]
  dsimp only
  rw [hp]

/-- What `k_malloc` hands out, with fresh page blocks at hand for the anonymous pools,
`k_free` returns to the anonymous pool it came from. -/
theorem PoolInv.kFree_kMalloc {anonPools : Nat → Nat} {size page : Nat} {descOk : Bool}
    {s' : PoolState} (hI : PoolInv S)
    (hanon : ∀ i < anonPoolsLength,
      anonPools i < S.state.poolCount ∧ S.BlockFresh (anonPools i) page)
    (h : kMalloc S.state anonPools size page descOk = some (s', some obj)) :
    ∃ i < anonPoolsLength, size ≤ anonPoolsMinSize <<< i ∧
      kFree s' obj = kObjectPoolPut s' (anonPools i) obj := by
  obtain ⟨i, hi, hsize, hget⟩ := kMalloc_inv h
  obtain ⟨hp, hfresh⟩ := hanon i hi
  have hI' := hI.get hp hfresh hget
  exact ⟨i, hi, hsize, hI'.kFree_eq List.mem_cons_self⟩

/-! ## Progress

`k_object_pool_slab_get` asserts `page_assert` on `kva2page(slab->data)`, the page the
coloured data start on. That is the first page of the slab's block only while colour
offsets stay below a page, so progress is stated for pools with `color_max < PAGE_SIZE`
(all the anonymous pools of `k_malloc`). -/

/-- A slab of a run with a block to spare hands one out, on any state that shows the same
descriptor, pages and layout. -/
theorem SlabWF.slabGet_exists {sid : Nat} {P : KObjectPool} {T : PoolState}
    (h : SlabWF S sid (S.state.slabs sid) P) (hslabs : T.slabs = S.state.slabs)
    (hpages : T.pages = S.state.pages) (hl : P.SameLayout (T.pools (T.slabs sid).pool))
    (hcolor : P.colorMax < pageSize) (hused : (S.state.slabs sid).usedCount < P.slabCapacity) :
    ∃ T' obj, kObjectPoolSlabGet T sid = some (T', obj) := by
  obtain ⟨c, hdata, -, hc⟩ := h.color
  obtain ⟨l, hch, hlen, -⟩ := h.chain
  have hord := hl.slabPageOrder
  have hcap := hl.slabCapacity
  rw [hslabs] at hord hcap
  refine kObjectPoolSlabGet_exists (b := S.block sid) (c := c) (l := l) ?_ (by omega) ?_ ?_ ?_ ?_ ?_
  · rw [hslabs, hdata]
  · intro o ho
    rw [hslabs, hord] at ho
    rw [hpages]
    exact (h.pages o ho).2
  · rw [hpages]
    exact h.ref
  · rw [hslabs]
    exact hch
  · rw [hslabs, hcap, hlen]
  · rw [hslabs, hcap]
    exact hused

/-- A slab on `slabs_full` of pool `p`, moved to the back of `slabs_partial`, hands out a
block: it is unused, and a pool has room for at least one block in a slab. -/
theorem PoolInv.slabGet_full_exists {sid : Nat} (hI : PoolInv S) (hp : p < S.state.poolCount)
    (hcolor : (S.state.pools p).colorMax < pageSize) (hmem : sid ∈ (S.state.pools p).slabsFull) :
    ∃ s' obj, kObjectPoolSlabGet
      { S.state with
        pools := Function.update S.state.pools p ((S.state.pools p).moveToPartialBack sid) } sid =
        some (s', obj) := by
  have hpw := hI.pool hp
  obtain ⟨hsid, hsp⟩ := hpw.owned (Or.inr (Or.inr hmem))
  have hw := hI.slab hsid
  rw [hsp] at hw
  have hunused := (hpw.placed sid).2.2 hmem
  refine hw.slabGet_exists rfl rfl ?_ hcolor (by rw [hunused]; exact hpw.layout.capacity_pos)
  dsimp only
  rw [hsp, Function.update_self]
  exact KObjectPool.sameLayout_moveToPartialBack

/-- When `k_object_pool_get` on pool `p` can hand out a block without the page allocator
and `k_malloc` failing: a slab in part or not at all in use is listed, or the block at
`page` is fresh and untagged, an off-slab descriptor can be had, and blocks are not empty. -/
def PoolSys.CanGet (S : PoolSys) (p page : Nat) (descOk : Bool) : Prop :=
  (S.state.pools p).slabsPartial ≠ [] ∨ (S.state.pools p).slabsFull ≠ [] ∨
    (S.BlockFresh p page ∧
      (pageAllocBlockTag S.state.pages page (S.state.pools p).slabPageOrder pageTagSlab).isSome ∧
      ((S.state.pools p).offSlab = false ∨ descOk = true) ∧ 0 < (S.state.pools p).blockSize)

/-- `k_object_pool_get` hands out a block whenever it can. -/
theorem PoolInv.kObjectPoolGet_exists {page : Nat} {descOk : Bool} (hI : PoolInv S)
    (hp : p < S.state.poolCount) (hcolor : (S.state.pools p).colorMax < pageSize)
    (hcan : S.CanGet p page descOk) :
    ∃ s' obj, kObjectPoolGet S.state p page descOk = some (s', obj) := by
  have hpw := hI.pool hp
  unfold kObjectPoolGet
  cases hpart : (S.state.pools p).slabsPartial with
  | cons sid rest =>
    -- the head of `slabs_partial` is in part use
    have hmem : sid ∈ (S.state.pools p).slabsPartial := by
      rw [hpart]
      exact List.mem_cons_self
    obtain ⟨hsid, hsp⟩ := hpw.owned (Or.inr (Or.inl hmem))
    have hw := hI.slab hsid
    rw [hsp] at hw
    exact hw.slabGet_exists rfl rfl (by rw [hsp]; exact KObjectPool.SameLayout.refl _) hcolor
      ((hpw.placed sid).2.1 hmem).2
  | nil =>
    dsimp only
    cases hfull : (S.state.pools p).slabsFull with
    | cons sid rest =>
      exact hI.slabGet_full_exists hp hcolor (by rw [hfull]; exact List.mem_cons_self)
    | nil =>
      -- neither list has a slab: a new one is made on the fresh block
      obtain ⟨hfresh, htag, hdesc, hbs⟩ : S.BlockFresh p page ∧ _ ∧ _ ∧ _ := by
        rcases hcan with h | h | h
        · exact absurd hpart h
        · exact absurd hfull h
        · exact h
      obtain ⟨pages, hpages⟩ := Option.isSome_iff_exists.1 htag
      obtain ⟨⟨s₁, sid⟩, hcreate⟩ := Option.isSome_iff_exists.1
        (kObjectPoolSlabCreate_isSome hpw.layout hbs hpages hdesc)
      obtain ⟨hI₁, hmem, hcount⟩ := hI.slabCreate hp hfresh hcreate
      dsimp only
      rw [hcreate]
      exact hI₁.slabGet_full_exists (hcount ▸ hp)
        (by rw [kObjectPoolSlabCreate_colorMax hcreate]; exact hcolor) hmem

/-- `k_malloc` of at most `16384` bytes hands out an object whenever the anonymous pool it
picks can. -/
theorem PoolInv.kMalloc_exists {anonPools : Nat → Nat} {size page : Nat} {descOk : Bool}
    (hI : PoolInv S) (hsize : size ≤ anonPoolsMinSize <<< (anonPoolsLength - 1))
    (hanon : ∀ i < anonPoolsLength, anonPools i < S.state.poolCount ∧
      (S.state.pools (anonPools i)).colorMax < pageSize ∧ S.CanGet (anonPools i) page descOk) :
    ∃ s' obj, kMalloc S.state anonPools size page descOk = some (s', some obj) := by
  -- the search of the anonymous pools stops at the last one at the latest
  obtain ⟨i, hfind⟩ : ∃ i, (List.range anonPoolsLength).find?
      (fun i => size ≤ anonPoolsMinSize <<< i) = some i := by
    apply Option.isSome_iff_exists.1
    rw [List.find?_isSome]
    exact ⟨anonPoolsLength - 1, List.mem_range.2 (by decide), by simpa using hsize⟩
  have hi := List.mem_range.1 (List.mem_of_find?_eq_some hfind)
  obtain ⟨hp, hcolor, hcan⟩ := hanon i hi
  obtain ⟨s', obj, hget⟩ := hI.kObjectPoolGet_exists hp hcolor hcan
  refine ⟨s', obj, ?_⟩
  unfold kMalloc
  rw [hfind]
  dsimp only
  rw [hget]
  rfl

/-- What the slab allocator promises in a state. -/
structure PoolSafe (S : PoolSys) : Prop where
  /-- A slab on `slabs_empty` is in full use, one on `slabs_partial` in part, one on
  `slabs_full` not at all. -/
  lists : ∀ p < S.state.poolCount, ∀ sid,
    (sid ∈ (S.state.pools p).slabsEmpty →
      (S.state.slabs sid).usedCount = (S.state.pools p).slabCapacity) ∧
    (sid ∈ (S.state.pools p).slabsPartial →
      0 < (S.state.slabs sid).usedCount ∧
        (S.state.slabs sid).usedCount < (S.state.pools p).slabCapacity) ∧
    (sid ∈ (S.state.pools p).slabsFull → (S.state.slabs sid).usedCount = 0)
  /-- The free chain of a slab ends, and holds `slab_capacity - used_count` distinct tags. -/
  chain : ∀ sid < S.state.slabCount, ∃ l,
    Chain (S.state.slabs sid).tags (S.state.slabs sid).free l ∧ l.Nodup ∧
      l.length = (S.state.pools (S.state.slabs sid).pool).slabCapacity -
        (S.state.slabs sid).usedCount
  /-- A held object is a `block_align`-aligned block of a slab of its pool, inside
  `[data, data + slab_capacity * block_size)`, which lies in the slab's page block before
  the on-slab descriptor and tags. -/
  placed : ∀ p obj, (p, obj) ∈ S.live → ∃ sid < S.state.slabCount,
    (S.state.slabs sid).pool = p ∧
    (S.state.pools p).blockAlign ∣ obj ∧
    (S.state.slabs sid).data ≤ obj ∧
    obj + (S.state.pools p).blockSize ≤
      (S.state.slabs sid).data + (S.state.pools p).slabCapacity * (S.state.pools p).blockSize ∧
    S.block sid * pageSize ≤ (S.state.slabs sid).data ∧
    (S.state.slabs sid).data + (S.state.pools p).slabCapacity * (S.state.pools p).blockSize +
        (S.state.pools p).onSlabSize ≤
      (S.block sid + 2 ^ (S.state.pools p).slabPageOrder) * pageSize
  /-- Distinct held objects do not overlap. -/
  apart : ∀ p obj p' obj', (p, obj) ∈ S.live → (p', obj') ∈ S.live → (p, obj) ≠ (p', obj') →
    Apart obj (S.state.pools p).blockSize obj' (S.state.pools p').blockSize
  /-- `k_free` returns a held object to its pool. -/
  free : ∀ p obj, (p, obj) ∈ S.live → kFree S.state obj = kObjectPoolPut S.state p obj
  /-- `k_free` returns what `k_malloc` hands out to the anonymous pool it came from. -/
  malloc : ∀ (anonPools : Nat → Nat) (size page : Nat) (descOk : Bool) (s' : PoolState)
    (obj : Nat), (∀ i < anonPoolsLength,
      anonPools i < S.state.poolCount ∧ S.BlockFresh (anonPools i) page) →
    kMalloc S.state anonPools size page descOk = some (s', some obj) →
    ∃ i < anonPoolsLength, size ≤ anonPoolsMinSize <<< i ∧
      kFree s' obj = kObjectPoolPut s' (anonPools i) obj

/-- In every reachable state the allocator is safe, and `k_object_pool_get` and `k_malloc`
hand out an object whenever the pool they draw on can. -/
theorem object_pool_invariant {pages : Nat → PageDesc} (h : PoolReachable pages S) :
    PoolSafe S ∧
      (∀ p page descOk, p < S.state.poolCount → (S.state.pools p).colorMax < pageSize →
        S.CanGet p page descOk →
          ∃ s' obj, kObjectPoolGet S.state p page descOk = some (s', obj)) ∧
      ∀ (anonPools : Nat → Nat) (size page : Nat) (descOk : Bool),
        size ≤ anonPoolsMinSize <<< (anonPoolsLength - 1) →
        (∀ i < anonPoolsLength, anonPools i < S.state.poolCount ∧
          (S.state.pools (anonPools i)).colorMax < pageSize ∧
          S.CanGet (anonPools i) page descOk) →
        ∃ s' obj, kMalloc S.state anonPools size page descOk = some (s', some obj) := by
  have hI := h.inv
  refine ⟨⟨fun p hp sid => (hI.pool hp).placed sid, fun sid hsid => (hI.slab hsid).chain_nodup,
    fun p obj hmem => hI.live_placed hmem, fun p obj p' obj' hmem hmem' hne => ?_,
    fun p obj hmem => hI.kFree_eq hmem, fun anonPools size page descOk s' obj hanon hm => ?_⟩,
    fun p page descOk hp hcolor hcan => hI.kObjectPoolGet_exists hp hcolor hcan,
    fun anonPools size page descOk hsize hanon => hI.kMalloc_exists hsize hanon⟩
  · exact hI.live_apart hmem hmem' hne
  · exact hI.kFree_kMalloc hanon hm

/-- After `k_object_pool_init` of a pool of 64-byte objects (59 to a one-page slab, colour
offsets up to 60 bytes), `k_object_pool_get` on a fresh untagged page hands out an object,
and the state after that call is safe. -/
theorem object_pool_invariant_anon64 :
    ∃ S obj, PoolReachable (fun _ => default) S ∧ S.live = [(0, obj)] ∧ PoolSafe S := by
  have h₁ := PoolReachable.step (@PoolReachable.boot (fun _ => default))
    (PoolStep.init 64 0 rfl)
  -- with no slab yet, every block of page 0 on is fresh
  have hfresh : ∀ {S : PoolSys}, S.state.slabCount = 0 → S.BlockFresh 0 0 :=
    fun hz => ⟨Nat.dvd_zero _, fun _ hsid => absurd (hz ▸ hsid) (Nat.not_lt_zero _)⟩
  obtain ⟨s', obj, hget⟩ := (object_pool_invariant h₁).2.1 0 0 true (by decide) (by decide)
    (Or.inr (Or.inr ⟨hfresh rfl, by decide, Or.inl rfl, by decide⟩))
  have h₂ := PoolReachable.step h₁ (PoolStep.get 0 0 true (by decide) (hfresh rfl) hget)
  exact ⟨_, obj, h₂, rfl, (object_pool_invariant h₂).1⟩

theorem slab_layout_fits {size align : Nat} {P : KObjectPool} (hsize : 0 < size)
    (h : kObjectPoolInit size align = some P) :
    P.slabPageOrder ≤ pageOrderMax ∧ 0 < P.slabCapacity ∧
      P.colorMax * 8 ≤ pageSize <<< P.slabPageOrder ∧
      (∀ c, P.blockAlign ∣ c → c ≤ P.colorMax →
        c + P.slabCapacity * P.blockSize + P.onSlabSize ≤ pageSize <<< P.slabPageOrder ∧
        ∀ (slab : KObjectSlab) (page t : Nat), slab.data = page * pageSize + c →
          t < P.slabCapacity →
          P.blockAlign ∣ tagToObject slab P.blockSize t ∧
            page * pageSize ≤ tagToObject slab P.blockSize t ∧
            tagToObject slab P.blockSize t + P.blockSize + P.onSlabSize ≤
              page * pageSize + 2 ^ P.slabPageOrder * pageSize) ∧
      (∀ (S : PoolState) (p page : Nat) (descOk : Bool) (pages : Nat → PageDesc),
        P.SameLayout (S.pools p) → (S.pools p).blockAlign ∣ (S.pools p).colorNext →
        (S.pools p).colorNext ≤ (S.pools p).colorMax →
        pageAllocBlockTag S.pages page P.slabPageOrder pageTagSlab = some pages →
        (P.offSlab = false ∨ descOk = true) →
        (kObjectPoolSlabCreate S p page descOk).isSome) ∧
      (P.offSlab = true → kObjectSlabSize + P.slabCapacity * kObjectTagSize ≤
        anonPoolsMinSize <<< (anonPoolsLength - 1)) := by
  obtain ⟨hP, -⟩ := kObjectPoolInit_wf h
  obtain ⟨hord, hcap, hcolor, hbs, hoff⟩ := kObjectPoolInit_layout h
  obtain ⟨horder, hwaste, -⟩ := kObjectPoolSlabOrder_spec hord
  have hfits := hP.fits
  refine ⟨horder, hP.capacity_pos, hcolor ▸ hwaste, fun c hc hcle => ⟨by omega, ?_⟩, ?_, ?_⟩
  · -- the data start at a page boundary plus the colour, and blocks are aligned
    intro slab page t hdata ht
    obtain ⟨h₁, h₂⟩ := tagToObject_mem_block hP hdata hcle ht
    refine ⟨?_, h₁, h₂⟩
    rw [tagToObject, hdata]
    exact Nat.dvd_add (Nat.dvd_add (hP.align_dvd_page.mul_left page) hc)
      (hP.align_dvd_block.mul_right t)
  · intro S p page descOk pages hl hcd hcn htag hdesc
    have htag' : pageAllocBlockTag S.pages page (S.pools p).slabPageOrder pageTagSlab =
        some pages := by
      rwa [hl.slabPageOrder]
    refine kObjectPoolSlabCreate_isSome (hP.of_sameLayout hl hcn hcd) ?_ htag' ?_
    · rw [hl.blockSize]
      omega
    · rwa [hl.offSlab]
  · -- an off-slab descriptor and its tags stay far below the largest anonymous pool
    intro hoffSlab
    rw [hoffSlab, eq_comm, decide_eq_true_eq] at hoff
    rw [hoffSlab] at hord hcap
    have hlt := kObjectPoolSlabOrder_offSlab_capacity (Nat.lt_of_lt_of_le hoff hbs) hord
    rw [← hcap] at hlt
    simp only [kObjectSlabSize, kObjectTagSize, anonPoolsMinSize, anonPoolsLength]
    omega

/-- Objects of 1500 bytes are kept off slab, five to a two-page slab, with colour offsets up
to the 692 bytes the slab wastes. -/
theorem slab_layout_fits_1500 :
    ∃ P, kObjectPoolInit 1500 0 = some P ∧ P.offSlab = true ∧ P.slabPageOrder = 1 ∧
      P.slabCapacity = 5 ∧ P.colorMax = 692 ∧
      kObjectSlabSize + P.slabCapacity * kObjectTagSize ≤
        anonPoolsMinSize <<< (anonPoolsLength - 1) :=
  ⟨_, rfl, rfl, rfl, rfl, rfl, (@slab_layout_fits 1500 0 _ (by decide) rfl).2.2.2.2.2 rfl⟩

end Argentum.Mm
