import Argentum.Mm.ObjectPool
import Argentum.Lib.LinkedChain
import Mathlib.Data.Nat.Prime.Basic
import Mathlib.Tactic.IntervalCases

/-!
# Argentum.Mm.ObjectPoolInvariant

The invariant of the slab allocator, and the facts it is built from.

* `KObjectPool.WF` is what `k_object_pool_init` establishes about a pool's layout
  (`kObjectPoolInit_wf`): the blocks, the colour offsets and the on-slab descriptor fit in
  the slab's page block exactly, and every offset is a multiple of the alignment.
* `KObjectPool.Placed` says that a slab sits on the list its use count calls for. Each way
  the allocator moves a slab between lists keeps every other slab where it was
  (`SameExcept`) and puts the moved one on one list only.
* `PoolInv` is the run invariant: every pool is well laid out and sorts its slabs; every
  slab's free tag chain is a `Chain` of exactly the tags whose blocks no client holds;
  slab blocks are aligned and pairwise apart, and their page descriptors point back at
  the slab.

From the invariant follow where an object lies (`PoolInv.tagToObject_mem`) and that two
objects of different slabs or tags are apart (`PoolInv.tagToObject_apart`).
-/

namespace Argentum.Mm

open AlignedBlock LinkedChain

/-! ## `k_object_pool_init` -/

theorem dvd_roundUp (x n : Nat) : n ∣ roundUp x n := Nat.dvd_sub_mod _

/-- Every alignment `k_object_pool_init` accepts rounds up to a divisor of the page size:
it is a power of two, and rounding to a word either keeps it or makes it a word. -/
theorem roundUp_dvd_pageSize {a : Nat} (hdvd : pageSize % a = 0) :
    roundUp a uintptrSize ∣ pageSize := by
  obtain ⟨k, hk, rfl⟩ := (Nat.dvd_prime_pow Nat.prime_two).1
    (show a ∣ 2 ^ 12 from Nat.dvd_of_mod_eq_zero hdvd)
  interval_cases k <;> decide

theorem pageSize_le_shiftLeft (order : Nat) : pageSize ≤ pageSize <<< order := by
  rw [Nat.shiftLeft_eq]
  exact Nat.le_mul_of_pos_right _ (Nat.two_pow_pos order)

/-- The layout loop accounts for every byte of the slab: wastage, blocks and the on-slab
descriptor with its tags. -/
theorem kObjectPoolLayout_add (offSlab : Bool) (blockSize order : Nat) :
    (kObjectPoolLayout offSlab blockSize order).2 +
        (kObjectPoolLayout offSlab blockSize order).1 * blockSize +
        (if offSlab then 0
          else kObjectSlabSize + (kObjectPoolLayout offSlab blockSize order).1 * kObjectTagSize) =
      pageSize <<< order := by
  have hpage := pageSize_le_shiftLeft order
  cases offSlab with
  | true =>
    simp only [kObjectPoolLayout, kObjectPoolExtra, if_true, Nat.add_zero, Nat.sub_zero]
    have hmul := Nat.div_mul_le_self (pageSize <<< order) blockSize
    omega
  | false =>
    simp only [kObjectPoolLayout, kObjectPoolExtra, Bool.false_eq_true, if_false]
    generalize pageSize <<< order = total at hpage ⊢
    -- the capacity is a quotient: the blocks with their tags fit in what the descriptor leaves
    have hmul := Nat.div_mul_le_self (total - kObjectSlabSize) (blockSize + kObjectTagSize)
    generalize (total - kObjectSlabSize) / (blockSize + kObjectTagSize) = c at hmul ⊢
    rw [Nat.mul_add] at hmul ⊢
    simp only [kObjectSlabSize, kObjectTagSize, pageSize] at hmul hpage ⊢
    omega

/-- A slab that wastes at most an eighth of itself holds at least one block. -/
theorem kObjectPoolLayout_capacity_pos {offSlab : Bool} {blockSize order : Nat}
    (h : (kObjectPoolLayout offSlab blockSize order).2 * 8 ≤ pageSize <<< order) :
    0 < (kObjectPoolLayout offSlab blockSize order).1 := by
  have hadd := kObjectPoolLayout_add offSlab blockSize order
  have hpage := pageSize_le_shiftLeft order
  generalize kObjectPoolLayout offSlab blockSize order = r at h hadd
  generalize pageSize <<< order = total at h hadd hpage
  rcases Nat.eq_zero_or_pos r.1 with h0 | h0
  · rw [h0] at hadd
    cases offSlab <;> simp [kObjectSlabSize, pageSize] at hadd hpage <;> omega
  · exact h0

/-- What `k_object_pool_init` establishes about a pool's layout and `color_next`. -/
structure KObjectPool.WF (P : KObjectPool) : Prop where
  align_dvd_page : P.blockAlign ∣ pageSize
  align_dvd_block : P.blockAlign ∣ P.blockSize
  capacity_pos : 0 < P.slabCapacity
  /-- Largest colour offset, blocks and on-slab descriptor fill the slab exactly. -/
  fits : P.colorMax + P.slabCapacity * P.blockSize + P.onSlabSize =
    pageSize <<< P.slabPageOrder
  colorNext_le : P.colorNext ≤ P.colorMax
  align_dvd_colorNext : P.blockAlign ∣ P.colorNext

/-- The pool `k_object_pool_init` builds once the alignment `a` is fixed and the layout
loop has stopped at `order`. -/
theorem kObjectPoolSlabOrder_wf {offSlab : Bool} {blockSize a order : Nat} (ha : a ∣ pageSize)
    (hb : a ∣ blockSize) (hord : kObjectPoolSlabOrder offSlab blockSize = some order) :
    KObjectPool.WF
      { offSlab, slabsEmpty := [], slabsPartial := [], slabsFull := [],
        slabCapacity := (kObjectPoolLayout offSlab blockSize order).1, slabPageOrder := order,
        blockSize, blockAlign := a, colorMax := (kObjectPoolLayout offSlab blockSize order).2,
        colorNext := 0 } := by
  have hfit := List.find?_some hord
  simp only [decide_eq_true_eq] at hfit
  exact ⟨ha, hb, kObjectPoolLayout_capacity_pos hfit, kObjectPoolLayout_add _ _ _,
    Nat.zero_le _, Nat.dvd_zero _⟩

/-- `k_object_pool_init` returns a well laid out pool with no slabs. -/
theorem kObjectPoolInit_wf {size align : Nat} {P : KObjectPool}
    (h : kObjectPoolInit size align = some P) :
    P.WF ∧ P.slabsEmpty = [] ∧ P.slabsPartial = [] ∧ P.slabsFull = [] := by
  unfold kObjectPoolInit at h
  split_ifs at h with hsize hpage hzero <;> dsimp only at h <;>
    obtain ⟨order, hord, rfl⟩ := Option.map_eq_some_iff.1 h
  · -- an explicit alignment divides the page size, and so does its rounding to a word
    have hmod : pageSize % align = 0 := by
      by_contra hne
      exact hpage ⟨hzero, hne⟩
    exact ⟨kObjectPoolSlabOrder_wf (roundUp_dvd_pageSize hmod) (dvd_roundUp _ _) hord,
      rfl, rfl, rfl⟩
  · exact ⟨kObjectPoolSlabOrder_wf (by decide) (dvd_roundUp _ _) hord, rfl, rfl, rfl⟩

theorem le_roundUp (x : Nat) {n : Nat} (hn : 0 < n) : x ≤ roundUp x n := by
  have := Nat.mod_lt (x + n - 1) hn
  unfold roundUp roundDown
  omega

/-- `k_object_pool_init` inverted: the pool holds what the layout loop computed, for blocks
no smaller than the objects. -/
theorem kObjectPoolInit_layout {size align : Nat} {P : KObjectPool}
    (h : kObjectPoolInit size align = some P) :
    kObjectPoolSlabOrder P.offSlab P.blockSize = some P.slabPageOrder ∧
      P.slabCapacity = (kObjectPoolLayout P.offSlab P.blockSize P.slabPageOrder).1 ∧
      P.colorMax = (kObjectPoolLayout P.offSlab P.blockSize P.slabPageOrder).2 ∧
      size ≤ P.blockSize ∧ P.offSlab = decide (pageSize / 8 < size) := by
  unfold kObjectPoolInit at h
  split_ifs at h with hsize hpage hzero <;> dsimp only at h <;>
    obtain ⟨order, hord, rfl⟩ := Option.map_eq_some_iff.1 h
  · have halign : 0 < roundUp align uintptrSize :=
      Nat.lt_of_lt_of_le (Nat.pos_of_ne_zero hzero) (le_roundUp align (by decide))
    exact ⟨hord, rfl, rfl, le_roundUp size halign, rfl⟩
  · exact ⟨hord, rfl, rfl, le_roundUp size (by decide), rfl⟩

/-- The layout loop stops by `PAGE_ORDER_MAX` at an order that wastes at most an eighth of
the slab, after orders that each wasted more. -/
theorem kObjectPoolSlabOrder_spec {offSlab : Bool} {blockSize order : Nat}
    (hord : kObjectPoolSlabOrder offSlab blockSize = some order) :
    order ≤ pageOrderMax ∧ (kObjectPoolLayout offSlab blockSize order).2 * 8 ≤ pageSize <<< order ∧
      ∀ o < order, pageSize <<< o < (kObjectPoolLayout offSlab blockSize o).2 * 8 := by
  obtain ⟨hfit, hmem, hbefore⟩ := List.find?_range_eq_some.1 hord
  refine ⟨Nat.lt_succ_iff.1 (List.mem_range.1 hmem), of_decide_eq_true hfit, fun o ho => ?_⟩
  simpa only [Bool.not_eq_true', decide_eq_false_iff_not, Nat.not_le] using hbefore o ho

/-- Off slab, the loop divides the slab among the blocks alone and wastes the remainder. -/
theorem kObjectPoolLayout_offSlab (blockSize order : Nat) :
    kObjectPoolLayout true blockSize order =
      ((pageSize <<< order) / blockSize, (pageSize <<< order) % blockSize) := by
  simp only [kObjectPoolLayout, kObjectPoolExtra, if_true, Nat.sub_zero, Nat.add_zero,
    Nat.mod_eq_sub_div_mul]

/-- An off-slab pool, whose blocks are over an eighth of a page, holds fewer than 16 blocks
a slab: the order before the one the loop stops at wasted over an eighth of a slab half the
size, and what it wasted is less than a block. -/
theorem kObjectPoolSlabOrder_offSlab_capacity {blockSize order : Nat}
    (hbs : pageSize / 8 < blockSize) (hord : kObjectPoolSlabOrder true blockSize = some order) :
    (kObjectPoolLayout true blockSize order).1 < 16 := by
  obtain ⟨-, -, hbefore⟩ := kObjectPoolSlabOrder_spec hord
  rw [kObjectPoolLayout_offSlab, Nat.div_lt_iff_lt_mul (by omega)]
  cases order with
  | zero =>
    simp only [pageSize] at hbs ⊢
    omega
  | succ o =>
    have hwaste := hbefore o (Nat.lt_succ_self o)
    rw [kObjectPoolLayout_offSlab] at hwaste
    have hmod := Nat.mod_lt (pageSize <<< o) (by omega : 0 < blockSize)
    rw [Nat.shiftLeft_succ]
    omega

/-! ## Moving slabs between lists -/

namespace KObjectPool

variable {P P' P'' : KObjectPool} {sid x u : Nat}

/-- Slab `x` is on one of the pool's lists. -/
def Listed (P : KObjectPool) (x : Nat) : Prop :=
  x ∈ P.slabsEmpty ∨ x ∈ P.slabsPartial ∨ x ∈ P.slabsFull

/-- The lists holding slab `x` are the ones its use count `used` calls for. -/
def Placed (P : KObjectPool) (x used : Nat) : Prop :=
  (x ∈ P.slabsEmpty → used = P.slabCapacity) ∧
    (x ∈ P.slabsPartial → 0 < used ∧ used < P.slabCapacity) ∧
    (x ∈ P.slabsFull → used = 0)

/-- No list holds a slab twice. -/
structure ListsNodup (P : KObjectPool) : Prop where
  empty : P.slabsEmpty.Nodup
  part : P.slabsPartial.Nodup
  full : P.slabsFull.Nodup

/-- `P'` has the layout of `P`: only the lists and `color_next` may differ. -/
structure SameLayout (P P' : KObjectPool) : Prop where
  offSlab : P'.offSlab = P.offSlab
  slabCapacity : P'.slabCapacity = P.slabCapacity
  slabPageOrder : P'.slabPageOrder = P.slabPageOrder
  blockSize : P'.blockSize = P.blockSize
  blockAlign : P'.blockAlign = P.blockAlign
  colorMax : P'.colorMax = P.colorMax

/-- Every slab other than `sid` is on the same lists of `P'` as of `P`. -/
structure SameExcept (P P' : KObjectPool) (sid : Nat) : Prop where
  empty : ∀ {x}, x ≠ sid → (x ∈ P'.slabsEmpty ↔ x ∈ P.slabsEmpty)
  part : ∀ {x}, x ≠ sid → (x ∈ P'.slabsPartial ↔ x ∈ P.slabsPartial)
  full : ∀ {x}, x ≠ sid → (x ∈ P'.slabsFull ↔ x ∈ P.slabsFull)

theorem SameLayout.refl (P : KObjectPool) : SameLayout P P := ⟨rfl, rfl, rfl, rfl, rfl, rfl⟩

theorem SameLayout.trans (h₁ : SameLayout P P') (h₂ : SameLayout P' P'') : SameLayout P P'' :=
  ⟨h₂.offSlab.trans h₁.offSlab, h₂.slabCapacity.trans h₁.slabCapacity,
    h₂.slabPageOrder.trans h₁.slabPageOrder, h₂.blockSize.trans h₁.blockSize,
    h₂.blockAlign.trans h₁.blockAlign, h₂.colorMax.trans h₁.colorMax⟩

theorem SameLayout.onSlabSize (h : SameLayout P P') : P'.onSlabSize = P.onSlabSize := by
  simp only [KObjectPool.onSlabSize, h.offSlab, h.slabCapacity]

/-- Replacing pool `p` of a table by one of the same layout keeps every entry's layout. -/
theorem SameLayout.update {pools : Nat → KObjectPool} {p : Nat} (h : SameLayout (pools p) P')
    (q : Nat) : SameLayout (pools q) (Function.update pools p P' q) := by
  by_cases hqp : q = p
  · subst hqp
    rw [Function.update_self]
    exact h
  · rw [Function.update_of_ne hqp]
    exact SameLayout.refl _

/-- A new `color_next` that stays a multiple of the alignment and below `color_max` keeps
the layout well formed. -/
theorem WF.of_sameLayout (hP : P.WF) (h : SameLayout P P') (hc : P'.colorNext ≤ P'.colorMax)
    (hd : P'.blockAlign ∣ P'.colorNext) : P'.WF where
  align_dvd_page := h.blockAlign ▸ hP.align_dvd_page
  align_dvd_block := h.blockAlign ▸ h.blockSize ▸ hP.align_dvd_block
  capacity_pos := h.slabCapacity ▸ hP.capacity_pos
  fits := by
    rw [h.onSlabSize, h.colorMax, h.slabCapacity, h.blockSize, h.slabPageOrder]
    exact hP.fits
  colorNext_le := hc
  align_dvd_colorNext := hd

theorem SameExcept.refl (P : KObjectPool) (sid : Nat) : SameExcept P P sid :=
  ⟨fun _ => Iff.rfl, fun _ => Iff.rfl, fun _ => Iff.rfl⟩

theorem SameExcept.trans (h₁ : SameExcept P P' sid) (h₂ : SameExcept P' P'' sid) :
    SameExcept P P'' sid :=
  ⟨fun hx => (h₂.empty hx).trans (h₁.empty hx), fun hx => (h₂.part hx).trans (h₁.part hx),
    fun hx => (h₂.full hx).trans (h₁.full hx)⟩

theorem SameExcept.listed_iff (h : SameExcept P P' sid) (hx : x ≠ sid) :
    P'.Listed x ↔ P.Listed x := by
  rw [Listed, Listed, h.empty hx, h.part hx, h.full hx]

theorem SameExcept.placed_iff (h : SameExcept P P' sid) (hl : SameLayout P P') (hx : x ≠ sid) :
    P'.Placed x u ↔ P.Placed x u := by
  rw [Placed, Placed, h.empty hx, h.part hx, h.full hx, hl.slabCapacity]

/-- A slab on `slabs_partial` that is placed there is on no other list. -/
theorem Placed.of_mem_slabsPartial (h : P.Placed sid u) (hmem : sid ∈ P.slabsPartial)
    {u' : Nat} (hu' : 0 < u' ∧ u' < P.slabCapacity) : P.Placed sid u' := by
  obtain ⟨hpos, hlt⟩ := h.2.1 hmem
  exact ⟨fun he => absurd (h.1 he) (by omega), fun _ => hu', fun hf => absurd (h.2.2 hf) (by omega)⟩

theorem sameLayout_moveToEmpty : SameLayout P (P.moveToEmpty sid) := ⟨rfl, rfl, rfl, rfl, rfl, rfl⟩

theorem sameLayout_moveToPartialBack : SameLayout P (P.moveToPartialBack sid) :=
  ⟨rfl, rfl, rfl, rfl, rfl, rfl⟩

theorem sameLayout_moveToPartialFront : SameLayout P (P.moveToPartialFront sid) :=
  ⟨rfl, rfl, rfl, rfl, rfl, rfl⟩

theorem sameLayout_moveToFullFront : SameLayout P (P.moveToFullFront sid) :=
  ⟨rfl, rfl, rfl, rfl, rfl, rfl⟩

theorem sameExcept_moveToEmpty : SameExcept P (P.moveToEmpty sid) sid := by
  constructor <;> intro x hx <;>
    simp [moveToEmpty, unlink, List.mem_erase_of_ne hx, hx]

theorem sameExcept_moveToPartialBack : SameExcept P (P.moveToPartialBack sid) sid := by
  constructor <;> intro x hx <;>
    simp [moveToPartialBack, unlink, List.mem_erase_of_ne hx, hx]

theorem sameExcept_moveToPartialFront : SameExcept P (P.moveToPartialFront sid) sid := by
  constructor <;> intro x hx <;>
    simp [moveToPartialFront, unlink, List.mem_erase_of_ne hx, hx]

theorem sameExcept_moveToFullFront : SameExcept P (P.moveToFullFront sid) sid := by
  constructor <;> intro x hx <;>
    simp [moveToFullFront, unlink, List.mem_erase_of_ne hx, hx]

theorem ListsNodup.moveToEmpty (h : P.ListsNodup) : (P.moveToEmpty sid).ListsNodup :=
  ⟨List.nodup_append.2 ⟨h.empty.erase sid, List.nodup_singleton sid, by
      rintro a ha _ hb rfl
      exact h.empty.not_mem_erase (List.mem_singleton.1 hb ▸ ha)⟩, h.part.erase sid,
    h.full.erase sid⟩

theorem ListsNodup.moveToPartialBack (h : P.ListsNodup) : (P.moveToPartialBack sid).ListsNodup :=
  ⟨h.empty.erase sid, List.nodup_append.2 ⟨h.part.erase sid, List.nodup_singleton sid, by
      rintro a ha _ hb rfl
      exact h.part.not_mem_erase (List.mem_singleton.1 hb ▸ ha)⟩, h.full.erase sid⟩

theorem ListsNodup.moveToPartialFront (h : P.ListsNodup) :
    (P.moveToPartialFront sid).ListsNodup :=
  ⟨h.empty.erase sid, List.nodup_cons.2 ⟨h.part.not_mem_erase, h.part.erase sid⟩,
    h.full.erase sid⟩

theorem ListsNodup.moveToFullFront (h : P.ListsNodup) : (P.moveToFullFront sid).ListsNodup :=
  ⟨h.empty.erase sid, h.part.erase sid,
    List.nodup_cons.2 ⟨h.full.not_mem_erase, h.full.erase sid⟩⟩

theorem placed_moveToEmpty (h : P.ListsNodup) :
    (P.moveToEmpty sid).Placed sid P.slabCapacity := by
  refine ⟨fun _ => rfl, fun hp => ?_, fun hf => ?_⟩
  · exact absurd hp (h.part.not_mem_erase)
  · exact absurd hf (h.full.not_mem_erase)

theorem placed_moveToPartialBack (h : P.ListsNodup) (hu : 0 < u ∧ u < P.slabCapacity) :
    (P.moveToPartialBack sid).Placed sid u := by
  refine ⟨fun he => ?_, fun _ => hu, fun hf => ?_⟩
  · exact absurd he (h.empty.not_mem_erase)
  · exact absurd hf (h.full.not_mem_erase)

theorem placed_moveToPartialFront (h : P.ListsNodup) (hu : 0 < u ∧ u < P.slabCapacity) :
    (P.moveToPartialFront sid).Placed sid u := by
  refine ⟨fun he => ?_, fun _ => hu, fun hf => ?_⟩
  · exact absurd he (h.empty.not_mem_erase)
  · exact absurd hf (h.full.not_mem_erase)

theorem placed_moveToFullFront (h : P.ListsNodup) : (P.moveToFullFront sid).Placed sid 0 := by
  refine ⟨fun he => ?_, fun hp => ?_, fun _ => rfl⟩
  · exact absurd he (h.empty.not_mem_erase)
  · exact absurd hp (h.part.not_mem_erase)

theorem listed_moveToEmpty : (P.moveToEmpty sid).Listed sid :=
  Or.inl (List.mem_append_right _ (List.mem_singleton_self sid))

theorem listed_moveToPartialBack : (P.moveToPartialBack sid).Listed sid :=
  Or.inr (Or.inl (List.mem_append_right _ (List.mem_singleton_self sid)))

theorem listed_moveToPartialFront : (P.moveToPartialFront sid).Listed sid :=
  Or.inr (Or.inl List.mem_cons_self)

theorem listed_moveToFullFront : (P.moveToFullFront sid).Listed sid :=
  Or.inr (Or.inr List.mem_cons_self)

end KObjectPool

/-! ## The invariant -/

theorem shiftLeft_pageSize (o : Nat) : pageSize <<< o = 2 ^ o * pageSize := by
  rw [Nat.shiftLeft_eq, Nat.mul_comm]

/-- Slab `sid` of a run, with descriptor `s` in pool `P`: where its block lies, its free
tag chain, and what the page descriptors of its block hold. -/
structure SlabWF (S : PoolSys) (sid : Nat) (s : KObjectSlab) (P : KObjectPool) : Prop where
  pool_lt : s.pool < S.state.poolCount
  blockSize_pos : 0 < P.blockSize
  /-- The page block is aligned to its size, -/
  aligned : 2 ^ P.slabPageOrder ∣ S.block sid
  /-- and the data start at a colour offset into it. -/
  color : ∃ c, s.data = S.block sid * pageSize + c ∧ P.blockAlign ∣ c ∧ c ≤ P.colorMax
  /-- The free tag chain is acyclic and holds exactly the tags whose blocks no client
  holds, `slab_capacity - used_count` of them. -/
  chain : ∃ l, Chain s.tags s.free l ∧ l.length + s.usedCount = P.slabCapacity ∧
    ∀ t, t ∈ l ↔ t < P.slabCapacity ∧ (s.pool, tagToObject s P.blockSize t) ∉ S.live
  listed : P.Listed sid
  /-- Every page of the block points back at the slab and is tagged `PAGE_TAG_SLAB`, -/
  pages : ∀ o < 2 ^ P.slabPageOrder, (S.state.pages (S.block sid + o)).slab = some sid ∧
    (S.state.pages (S.block sid + o)).debugTag = pageTagSlab
  /-- and the first one is referenced. -/
  ref : (S.state.pages (S.block sid)).refCount ≠ 0

/-- Pool `p` of a run, with descriptor `P`: its layout, and its lists hold its own slabs,
each on the list its use count calls for. -/
structure PoolWF (S : PoolSys) (p : Nat) (P : KObjectPool) : Prop where
  layout : P.WF
  nodup : P.ListsNodup
  owned : ∀ {x}, P.Listed x → x < S.state.slabCount ∧ (S.state.slabs x).pool = p
  placed : ∀ x, P.Placed x (S.state.slabs x).usedCount

/-- The slab allocator invariant over runs. -/
structure PoolInv (S : PoolSys) : Prop where
  pool : ∀ {p}, p < S.state.poolCount → PoolWF S p (S.state.pools p)
  slab : ∀ {sid}, sid < S.state.slabCount →
    SlabWF S sid (S.state.slabs sid) (S.state.pools (S.state.slabs sid).pool)
  /-- The page blocks of distinct slabs are apart. -/
  apart : ∀ {sid sid'}, sid < S.state.slabCount → sid' < S.state.slabCount → sid ≠ sid' →
    Apart (S.block sid) (2 ^ (S.state.pools (S.state.slabs sid).pool).slabPageOrder)
      (S.block sid') (2 ^ (S.state.pools (S.state.slabs sid').pool).slabPageOrder)
  /-- Every object a client holds is a block of a slab of its pool. -/
  live : ∀ {p obj}, (p, obj) ∈ S.live → ∃ sid < S.state.slabCount,
    (S.state.slabs sid).pool = p ∧
      ∃ t < (S.state.pools p).slabCapacity, obj = tagToObject (S.state.slabs sid) (S.state.pools p).blockSize t
  liveNodup : S.live.Nodup

variable {S S' : PoolSys} {sid : Nat} {s : KObjectSlab} {P P' : KObjectPool}

/-- A slab's invariant survives a change that keeps its descriptor, its pool's layout,
its place on a list, the pages of its block and which of its blocks clients hold. -/
theorem SlabWF.frame (h : SlabWF S sid s P) (hl : P.SameLayout P') (hlisted : P'.Listed sid)
    (hcount : S.state.poolCount ≤ S'.state.poolCount) (hblock : S'.block sid = S.block sid)
    (hpages : ∀ o < 2 ^ P.slabPageOrder,
      S'.state.pages (S.block sid + o) = S.state.pages (S.block sid + o))
    (hlive : ∀ t < P.slabCapacity, (s.pool, tagToObject s P.blockSize t) ∈ S'.live ↔
      (s.pool, tagToObject s P.blockSize t) ∈ S.live) :
    SlabWF S' sid s P' where
  pool_lt := Nat.lt_of_lt_of_le h.pool_lt hcount
  blockSize_pos := hl.blockSize ▸ h.blockSize_pos
  aligned := by rw [hblock, hl.slabPageOrder]; exact h.aligned
  color := by
    rw [hblock, hl.blockAlign, hl.colorMax]
    exact h.color
  chain := by
    obtain ⟨l, hch, hlen, hmem⟩ := h.chain
    refine ⟨l, hch, by rw [hl.slabCapacity]; exact hlen, fun t => ?_⟩
    rw [hmem t, hl.slabCapacity, hl.blockSize]
    constructor
    · rintro ⟨ht, hn⟩
      exact ⟨ht, fun h' => hn ((hlive t ht).1 h')⟩
    · rintro ⟨ht, hn⟩
      exact ⟨ht, fun h' => hn ((hlive t ht).2 h')⟩
  listed := hlisted
  pages := by
    intro o ho
    rw [hl.slabPageOrder] at ho
    rw [hblock, hpages o ho]
    exact h.pages o ho
  ref := by
    have h0 := hpages 0 (Nat.two_pow_pos _)
    rw [Nat.add_zero] at h0
    rw [hblock, h0]
    exact h.ref

/-- Block `t` ends where block `t + 1` starts, no later than any block `t' > t`. -/
theorem blockSize_mul_add_le {bs t t' : Nat} (h : t < t') : bs * t + bs ≤ bs * t' := by
  rw [← Nat.mul_succ]
  exact Nat.mul_le_mul_left _ h

/-- Where block `t` of a slab whose data start at colour offset `c` into the page block at
`b` lies: inside the block, and before the on-slab descriptor and tags at its end. -/
theorem tagToObject_mem_block (hP : P.WF) {b c t : Nat} (hdata : s.data = b * pageSize + c)
    (hc : c ≤ P.colorMax) (ht : t < P.slabCapacity) :
    b * pageSize ≤ tagToObject s P.blockSize t ∧
      tagToObject s P.blockSize t + P.blockSize + P.onSlabSize ≤
        b * pageSize + 2 ^ P.slabPageOrder * pageSize := by
  have hfits := hP.fits
  rw [shiftLeft_pageSize] at hfits
  have hmul : P.blockSize * t + P.blockSize ≤ P.slabCapacity * P.blockSize :=
    Nat.mul_comm P.slabCapacity _ ▸ blockSize_mul_add_le ht
  unfold tagToObject
  omega

theorem SlabWF.tagToObject_mem (h : SlabWF S sid s P) (hP : P.WF) {t : Nat}
    (ht : t < P.slabCapacity) :
    S.block sid * pageSize ≤ tagToObject s P.blockSize t ∧
      tagToObject s P.blockSize t + P.blockSize + P.onSlabSize ≤
        S.block sid * pageSize + 2 ^ P.slabPageOrder * pageSize := by
  obtain ⟨c, hdata, -, hc⟩ := h.color
  exact tagToObject_mem_block hP hdata hc ht

/-- The blocks of a slab, as byte spans, are pairwise apart. -/
theorem tagToObject_apart_of_ne (s : KObjectSlab) (P : KObjectPool) {t t' : Nat} (hne : t ≠ t') :
    Apart (tagToObject s P.blockSize t) P.blockSize (tagToObject s P.blockSize t') P.blockSize := by
  unfold tagToObject Apart
  rcases Nat.lt_or_gt_of_ne hne with hlt | hlt
  · have : P.blockSize * t + P.blockSize ≤ P.blockSize * t' := blockSize_mul_add_le hlt
    omega
  · have : P.blockSize * t' + P.blockSize ≤ P.blockSize * t := blockSize_mul_add_le hlt
    omega

/-- Two objects of the allocator, of different slabs or tags, are apart as byte spans. -/
theorem PoolInv.tagToObject_apart (hI : PoolInv S) {sid sid' t t' : Nat}
    (hs : sid < S.state.slabCount) (hs' : sid' < S.state.slabCount)
    (ht : t < (S.state.pools (S.state.slabs sid).pool).slabCapacity)
    (ht' : t' < (S.state.pools (S.state.slabs sid').pool).slabCapacity)
    (hne : (sid, t) ≠ (sid', t')) :
    Apart (tagToObject (S.state.slabs sid) (S.state.pools (S.state.slabs sid).pool).blockSize t)
      (S.state.pools (S.state.slabs sid).pool).blockSize
      (tagToObject (S.state.slabs sid') (S.state.pools (S.state.slabs sid').pool).blockSize t')
      (S.state.pools (S.state.slabs sid').pool).blockSize := by
  by_cases hsid : sid = sid'
  · subst hsid
    exact tagToObject_apart_of_ne _ _ fun htt => hne (by rw [htt])
  · -- objects of two slabs lie in their page blocks, which are apart
    have hblocks := Apart.mul_right (hI.apart hs hs' hsid) pageSize
    obtain ⟨h₁, h₂⟩ := (hI.slab hs).tagToObject_mem ((hI.pool (hI.slab hs).pool_lt).layout) ht
    obtain ⟨h₁', h₂'⟩ := (hI.slab hs').tagToObject_mem ((hI.pool (hI.slab hs').pool_lt).layout) ht'
    exact (hblocks.mono h₁' (by omega)).mono_left h₁ (by omega)

/-- The allocator's objects are determined by their slab and tag. -/
theorem PoolInv.tagToObject_inj (hI : PoolInv S) {sid sid' t t' : Nat}
    (hs : sid < S.state.slabCount) (hs' : sid' < S.state.slabCount)
    (ht : t < (S.state.pools (S.state.slabs sid).pool).slabCapacity)
    (ht' : t' < (S.state.pools (S.state.slabs sid').pool).slabCapacity)
    (heq : tagToObject (S.state.slabs sid) (S.state.pools (S.state.slabs sid).pool).blockSize t =
      tagToObject (S.state.slabs sid') (S.state.pools (S.state.slabs sid').pool).blockSize t') :
    sid = sid' ∧ t = t' := by
  by_contra hne
  have hapart := hI.tagToObject_apart hs hs' ht ht' fun h => hne (Prod.mk.inj h)
  rw [heq] at hapart
  have hpos := (hI.slab hs).blockSize_pos
  have hpos' := (hI.slab hs').blockSize_pos
  unfold Apart at hapart
  omega

end Argentum.Mm
