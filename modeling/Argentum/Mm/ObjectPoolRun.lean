import Argentum.Mm.ObjectPoolOps

/-!
# Argentum.Mm.ObjectPoolRun

The slab allocator over whole runs: any interleaving of `k_object_pool_init`,
`k_object_pool_get` and `k_object_pool_put` on any pools keeps `PoolInv`.

## Proof shape

`k_object_pool_get` and `k_object_pool_put` change one slab, the lists of its pool and the
objects clients hold. `PoolInv.update` says once what such a change must re-establish: the
changed slab's free chain and place on a list, and that no other slab's objects changed
hands. `PoolInv.slabGet` and `PoolInv.put` discharge it from the inversion lemmas:
taking the head of the chain hands out exactly its block, linking a returned block's tag in
front takes exactly that block back. `PoolInv.slabCreate` adds a slab on a fresh page
block, and `PoolInv.get` strings the three ways `k_object_pool_get` finds its slab together.
-/

namespace Argentum.Mm

open AlignedBlock LinkedChain

theorem tagToObject_congr {s s' : KObjectSlab} (h : s'.data = s.data) (bs t : Nat) :
    tagToObject s' bs t = tagToObject s bs t := by
  unfold tagToObject
  rw [h]

theorem KObjectPool.Placed.of_not_listed {P : KObjectPool} {x u : Nat} (h : ¬ P.Listed x) :
    P.Placed x u :=
  ⟨fun he => absurd (Or.inl he) h, fun hp => absurd (Or.inr (Or.inl hp)) h,
    fun hf => absurd (Or.inr (Or.inr hf)) h⟩

/-! ## Changing one slab -/

/-- The run after a call that replaced pool `p` by `P'`, slab `sid` by `s'` and the held
objects by `live'`. -/
def PoolSys.withSlab (S : PoolSys) (p : Nat) (P' : KObjectPool) (sid : Nat) (s' : KObjectSlab)
    (live' : List (Nat × Nat)) : PoolSys :=
  ⟨{ S.state with
      pools := Function.update S.state.pools p P'
      slabs := Function.update S.state.slabs sid s' }, live', S.block⟩

section Update

variable {S : PoolSys} {sid p : Nat} {P' : KObjectPool} {s' : KObjectSlab}
  {live' : List (Nat × Nat)}

@[simp] theorem withSlab_pools :
    (S.withSlab p P' sid s' live').state.pools = Function.update S.state.pools p P' := rfl

@[simp] theorem withSlab_slabs :
    (S.withSlab p P' sid s' live').state.slabs = Function.update S.state.slabs sid s' := rfl

@[simp] theorem withSlab_poolCount :
    (S.withSlab p P' sid s' live').state.poolCount = S.state.poolCount := rfl

@[simp] theorem withSlab_slabCount :
    (S.withSlab p P' sid s' live').state.slabCount = S.state.slabCount := rfl

@[simp] theorem withSlab_pages :
    (S.withSlab p P' sid s' live').state.pages = S.state.pages := rfl

@[simp] theorem withSlab_live : (S.withSlab p P' sid s' live').live = live' := rfl

@[simp] theorem withSlab_block : (S.withSlab p P' sid s' live').block = S.block := rfl

/-- Every slab keeps its pool's layout when only pool `p` changes, to one of the same
layout, and slab `sid` of `p` stays in `p`. -/
theorem sameLayout_update_slab (hp : (S.state.slabs sid).pool = p) (hpool : s'.pool = p)
    (hl : (S.state.pools p).SameLayout P') (x : Nat) :
    (S.state.pools (S.state.slabs x).pool).SameLayout
      (Function.update S.state.pools p P' (Function.update S.state.slabs sid s' x).pool) := by
  by_cases hxs : x = sid
  · subst hxs
    rw [Function.update_self, hpool, Function.update_self, hp]
    exact hl
  · rw [Function.update_of_ne hxs]
    exact hl.update _

/-- A call that changes only slab `sid` of pool `p`, the lists of `p` and the objects clients
hold keeps the invariant, when afterwards the slab sits on the right list with a chain of
exactly its unheld tags, and every other slab's objects are held as before. -/
theorem PoolInv.update (hI : PoolInv S) (hsid : sid < S.state.slabCount)
    (hp : (S.state.slabs sid).pool = p) (hpool : s'.pool = p)
    (hdata : s'.data = (S.state.slabs sid).data)
    (hl : (S.state.pools p).SameLayout P') (hx : (S.state.pools p).SameExcept P' sid)
    (hnd : P'.ListsNodup) (hwf : P'.WF) (hplaced : P'.Placed sid s'.usedCount)
    (hlisted : P'.Listed sid)
    (hchain : ∃ l, Chain s'.tags s'.free l ∧ l.length + s'.usedCount = P'.slabCapacity ∧
      ∀ t, t ∈ l ↔ t < P'.slabCapacity ∧ (p, tagToObject s' P'.blockSize t) ∉ live')
    (hother : ∀ {x}, x < S.state.slabCount → x ≠ sid →
      ∀ t < (S.state.pools (S.state.slabs x).pool).slabCapacity,
        ((S.state.slabs x).pool, tagToObject (S.state.slabs x)
          (S.state.pools (S.state.slabs x).pool).blockSize t) ∈ live' ↔
        ((S.state.slabs x).pool, tagToObject (S.state.slabs x)
          (S.state.pools (S.state.slabs x).pool).blockSize t) ∈ S.live)
    (hlive : ∀ {q obj}, (q, obj) ∈ live' → (q, obj) ∈ S.live ∨
      (q = p ∧ ∃ t < (S.state.pools p).slabCapacity,
        obj = tagToObject (S.state.slabs sid) (S.state.pools p).blockSize t))
    (hnodup : live'.Nodup) :
    PoolInv (S.withSlab p P' sid s' live') where
  pool := by
    intro q hq
    rw [withSlab_poolCount] at hq
    by_cases hqp : q = p
    · subst hqp
      rw [withSlab_pools, Function.update_self]
      refine ⟨hwf, hnd, fun {x} hxl => ?_, fun x => ?_⟩ <;>
        simp only [withSlab_slabs, withSlab_slabCount]
      · by_cases hxs : x = sid
        · subst hxs
          rw [Function.update_self]
          exact ⟨hsid, hpool⟩
        · rw [Function.update_of_ne hxs]
          exact (hI.pool hq).owned ((hx.listed_iff hxs).1 hxl)
      · by_cases hxs : x = sid
        · subst hxs
          rw [Function.update_self]
          exact hplaced
        · rw [Function.update_of_ne hxs]
          exact (hx.placed_iff hl hxs).2 ((hI.pool hq).placed x)
    · -- another pool: slab `sid` is not on its lists
      rw [withSlab_pools, Function.update_of_ne hqp]
      have hw := hI.pool hq
      refine ⟨hw.layout, hw.nodup, fun {x} hxl => ?_, fun x => ?_⟩ <;>
        simp only [withSlab_slabs, withSlab_slabCount]
      · obtain ⟨hxc, hxq⟩ := hw.owned hxl
        have hxs : x ≠ sid := fun hxs => hqp (by rw [← hxq, hxs, hp])
        rw [Function.update_of_ne hxs]
        exact ⟨hxc, hxq⟩
      · by_cases hxs : x = sid
        · subst hxs
          exact KObjectPool.Placed.of_not_listed fun hxl => hqp (by
            rw [← (hw.owned hxl).2, hp])
        · rw [Function.update_of_ne hxs]
          exact hw.placed x
  slab := by
    intro x hxc
    rw [withSlab_slabCount] at hxc
    have hsame := sameLayout_update_slab hp hpool hl x
    by_cases hxs : x = sid
    · subst hxs
      have hw := hI.slab hxc
      rw [hp] at hw
      rw [withSlab_slabs, Function.update_self, withSlab_pools, hpool, Function.update_self]
      refine ⟨by rw [withSlab_poolCount, hpool, ← hp]; exact (hI.slab hxc).pool_lt,
        hl.blockSize ▸ hw.blockSize_pos, hl.slabPageOrder ▸ hw.aligned, ?_,
        by rw [hpool]; exact hchain, hlisted, ?_, hw.ref⟩
      · rw [hdata, hl.blockAlign, hl.colorMax]
        exact hw.color
      · rw [hl.slabPageOrder]
        exact hw.pages
    · have hw := hI.slab hxc
      rw [Function.update_of_ne hxs] at hsame
      rw [withSlab_slabs, Function.update_of_ne hxs]
      refine hw.frame hsame ?_ le_rfl rfl (fun _ _ => rfl) (hother hxc hxs)
      -- the slab keeps its place on its pool's lists
      rw [withSlab_pools]
      by_cases hxp : (S.state.slabs x).pool = p
      · rw [hxp, Function.update_self]
        rw [hxp] at hw
        exact (hx.listed_iff hxs).2 hw.listed
      · rw [Function.update_of_ne hxp]
        exact hw.listed
  apart := by
    intro x y hx' hy' hne
    have hsx := sameLayout_update_slab hp hpool hl x
    have hsy := sameLayout_update_slab hp hpool hl y
    simp only [withSlab_pools, withSlab_slabs, withSlab_block]
    rw [hsx.slabPageOrder, hsy.slabPageOrder]
    exact hI.apart hx' hy' hne
  live := by
    intro q obj hmem
    rcases hlive hmem with hold | ⟨rfl, t, ht, rfl⟩
    · obtain ⟨x, hxc, hxq, t, ht, rfl⟩ := hI.live hold
      -- slab `x` keeps its pool and its data, and the pool its layout
      have hxq' : (Function.update S.state.slabs sid s' x).pool = q := by
        by_cases hxs : x = sid
        · subst hxs
          rw [Function.update_self, hpool, ← hp, hxq]
        · rw [Function.update_of_ne hxs, hxq]
      have hdx : (Function.update S.state.slabs sid s' x).data = (S.state.slabs x).data := by
        by_cases hxs : x = sid
        · subst hxs
          rw [Function.update_self, hdata]
        · rw [Function.update_of_ne hxs]
      have hsx := sameLayout_update_slab hp hpool hl x
      rw [hxq', hxq] at hsx
      refine ⟨x, hxc, ?_, t, ?_, ?_⟩ <;> simp only [withSlab_pools, withSlab_slabs]
      · exact hxq'
      · rw [hsx.slabCapacity]
        exact ht
      · rw [hsx.blockSize]
        exact (tagToObject_congr hdx _ _).symm
    · refine ⟨sid, hsid, ?_, t, ?_, ?_⟩ <;>
        simp only [withSlab_pools, withSlab_slabs, Function.update_self]
      · exact hpool
      · rw [hl.slabCapacity]
        exact ht
      · rw [hl.blockSize]
        exact (tagToObject_congr hdata _ _).symm
  liveNodup := hnodup

end Update

/-! ## Taking and returning a block -/

section Ops

variable {S : PoolSys} {sid p obj : Nat} {s' : PoolState}

/-- `k_object_pool_slab_get` on slab `sid` of pool `p`, after the pool's lists were
changed to `P₁` with the slab on `slabs_partial` alone, keeps the invariant and hands out
a block nobody held. -/
theorem PoolInv.slabGet {P₁ : KObjectPool} (hI : PoolInv S) (hsid : sid < S.state.slabCount)
    (hp : (S.state.slabs sid).pool = p) (hl : (S.state.pools p).SameLayout P₁)
    (hx : (S.state.pools p).SameExcept P₁ sid) (hnd : P₁.ListsNodup) (hwf : P₁.WF)
    (hplaced : ∀ u, 0 < u → u < P₁.slabCapacity → P₁.Placed sid u) (hlisted : P₁.Listed sid)
    (hget : kObjectPoolSlabGet { S.state with pools := Function.update S.state.pools p P₁ } sid =
      some (s', obj)) :
    PoolInv ⟨s', (p, obj) :: S.live, S.block⟩ := by
  obtain ⟨t, hfree, hlt, hempty, hobj, rfl⟩ := kObjectPoolSlabGet_inv hget
  dsimp only at hfree hlt hempty hobj ⊢
  rw [hp, Function.update_self] at hlt hempty hobj
  rw [hl.blockSize] at hobj
  simp only [hp, Function.update_self, Function.update_idem]
  have hw := hI.slab hsid
  rw [hp] at hw
  obtain ⟨l, hch, hlen, hmem⟩ := hw.chain
  rw [hp] at hmem
  rw [hfree] at hch
  obtain ⟨l', rfl, hch'⟩ := Chain.some_iff.1 hch
  have htl : t ∉ l' := (List.nodup_cons.1 hch.nodup).1
  have ht : t < (S.state.pools p).slabCapacity := ((hmem t).1 List.mem_cons_self).1
  have hbs := hw.blockSize_pos
  -- the rest of the chain is exactly the unheld tags once block `t` is held
  have hchain : ∀ t', t' ∈ l' ↔ t' < (S.state.pools p).slabCapacity ∧
      (p, tagToObject (S.state.slabs sid) (S.state.pools p).blockSize t') ∉
        (p, obj) :: S.live := by
    intro t'
    by_cases htt : t' = t
    · subst htt
      simp only [htl, false_iff, not_and, not_not, hobj]
      exact fun _ => List.mem_cons_self
    · have hne : tagToObject (S.state.slabs sid) (S.state.pools p).blockSize t' ≠ obj := by
        rw [hobj]
        intro heq
        have hap := tagToObject_apart_of_ne (S.state.slabs sid) (S.state.pools p) htt
        rw [heq] at hap
        unfold Apart at hap
        omega
      have hmem' : t' ∈ t :: l' ↔ t' ∈ l' := by simp [htt]
      rw [← hmem', hmem t']
      simp only [List.mem_cons, Prod.mk.injEq, hne, and_false, false_or]
  -- no other slab's objects change hands
  have hother : ∀ {x}, x < S.state.slabCount → x ≠ sid →
      ∀ t' < (S.state.pools (S.state.slabs x).pool).slabCapacity,
        ((S.state.slabs x).pool, tagToObject (S.state.slabs x)
          (S.state.pools (S.state.slabs x).pool).blockSize t') ∈ (p, obj) :: S.live ↔
        ((S.state.slabs x).pool, tagToObject (S.state.slabs x)
          (S.state.pools (S.state.slabs x).pool).blockSize t') ∈ S.live := by
    intro x hxc hxs t' ht'
    rw [List.mem_cons, or_iff_right]
    intro heq
    have hobj' := (Prod.mk.inj heq).2
    exact hxs (hI.tagToObject_inj hxc hsid ht' (by rw [hp]; exact ht)
      (by rw [hp]; exact hobj'.trans hobj)).1
  have hlive : ∀ {q o}, (q, o) ∈ (p, obj) :: S.live → (q, o) ∈ S.live ∨
      (q = p ∧ ∃ t < (S.state.pools p).slabCapacity,
        o = tagToObject (S.state.slabs sid) (S.state.pools p).blockSize t) := by
    intro q o hq
    rcases List.mem_cons.1 hq with heq | hq
    · obtain ⟨rfl, rfl⟩ := Prod.mk.inj heq
      exact Or.inr ⟨rfl, t, ht, hobj⟩
    · exact Or.inl hq
  have hnodup : ((p, obj) :: S.live).Nodup :=
    List.nodup_cons.2 ⟨fun h => ((hmem t).1 List.mem_cons_self).2 (hobj ▸ h), hI.liveNodup⟩
  by_cases hfull : (S.state.slabs sid).usedCount + 1 = P₁.slabCapacity
  · -- the last block went: the slab moves to `slabs_empty`
    rw [if_pos hfull]
    have hl₂ : (S.state.pools p).SameLayout (P₁.moveToEmpty sid) :=
      hl.trans KObjectPool.sameLayout_moveToEmpty
    refine hI.update hsid hp rfl rfl hl₂ (hx.trans KObjectPool.sameExcept_moveToEmpty)
      hnd.moveToEmpty (hwf.of_sameLayout KObjectPool.sameLayout_moveToEmpty hwf.colorNext_le
        hwf.align_dvd_colorNext) ?_ KObjectPool.listed_moveToEmpty ⟨l', hch', ?_, ?_⟩
      hother hlive hnodup
    · show (P₁.moveToEmpty sid).Placed sid ((S.state.slabs sid).usedCount + 1)
      rw [hfull]
      exact KObjectPool.placed_moveToEmpty hnd
    · show l'.length + ((S.state.slabs sid).usedCount + 1) = _
      simp only [List.length_cons] at hlen
      rw [hl₂.slabCapacity]
      omega
    · rw [hl₂.slabCapacity, hl₂.blockSize]
      exact hchain
  · rw [if_neg hfull]
    refine hI.update hsid hp rfl rfl hl hx hnd hwf
      (hplaced _ (Nat.succ_pos _) (Nat.lt_of_le_of_ne hlt hfull)) hlisted ⟨l', hch', ?_, ?_⟩
      hother hlive hnodup
    · show l'.length + ((S.state.slabs sid).usedCount + 1) = _
      simp only [List.length_cons] at hlen
      rw [hl.slabCapacity]
      omega
    · rw [hl.slabCapacity, hl.blockSize]
      exact hchain

/-- `k_object_pool_put` of an object held from pool `p` finds its slab through the page
descriptors, links its tag back in front of the chain and keeps the invariant. -/
theorem PoolInv.put (hI : PoolInv S) (hlive : (p, obj) ∈ S.live)
    (h : kObjectPoolPut S.state p obj = some s') :
    PoolInv ⟨s', S.live.erase (p, obj), S.block⟩ := by
  obtain ⟨sid, hsid, hp, t, ht, rfl⟩ := hI.live hlive
  have hw := hI.slab hsid
  rw [hp] at hw
  have hpw := hI.pool (hp ▸ hw.pool_lt)
  -- the page `k_object_pool_put` reads is the first page of the slab's block
  have hpage : roundDown (tagToObject (S.state.slabs sid) (S.state.pools p).blockSize t)
      (pageSize <<< (S.state.pools p).slabPageOrder) / pageSize = S.block sid := by
    obtain ⟨h₁, h₂⟩ := hw.tagToObject_mem hpw.layout ht
    have hbs := hw.blockSize_pos
    rw [shiftLeft_pageSize, roundDown_eq_of_mem (Nat.mul_dvd_mul_right hw.aligned pageSize) h₁
      (by omega), Nat.mul_div_cancel _ (by decide : 0 < pageSize)]
  obtain ⟨sid₀, hsid₀, hput⟩ := kObjectPoolPut_inv h
  rw [hpage] at hsid₀
  have hfirst := (hw.pages 0 (Nat.two_pow_pos _)).1
  rw [Nat.add_zero, hsid₀, Option.some.injEq] at hfirst
  subst hfirst
  obtain ⟨hused, hbs, rfl⟩ := kObjectPoolSlabPut_inv hput
  rw [hp] at hbs
  have htag : (tagToObject (S.state.slabs sid₀) (S.state.pools p).blockSize t -
      (S.state.slabs sid₀).data) / (S.state.pools p).blockSize = t := by
    unfold tagToObject
    rw [Nat.add_sub_cancel_left, Nat.mul_div_cancel_left _ hbs]
  simp only [hp, htag]
  obtain ⟨l, hch, hlen, hmem⟩ := hw.chain
  rw [hp] at hmem
  have htl : t ∉ l := fun htl => ((hmem t).1 htl).2 hlive
  -- the chain with `t` in front is exactly the unheld tags once the object is back
  have hchain : ∀ t', t' ∈ t :: l ↔ t' < (S.state.pools p).slabCapacity ∧
      (p, tagToObject (S.state.slabs sid₀) (S.state.pools p).blockSize t') ∉
        S.live.erase (p, tagToObject (S.state.slabs sid₀) (S.state.pools p).blockSize t) := by
    intro t'
    by_cases htt : t' = t
    · subst htt
      simp only [List.mem_cons_self, true_iff]
      exact ⟨ht, hI.liveNodup.not_mem_erase⟩
    · have hne : tagToObject (S.state.slabs sid₀) (S.state.pools p).blockSize t' ≠
          tagToObject (S.state.slabs sid₀) (S.state.pools p).blockSize t := by
        intro heq
        have hap := tagToObject_apart_of_ne (S.state.slabs sid₀) (S.state.pools p) htt
        rw [heq] at hap
        unfold Apart at hap
        omega
      rw [List.mem_cons, or_iff_right htt, hmem t',
        List.mem_erase_of_ne (fun heq => hne (Prod.mk.inj heq).2)]
  have hother : ∀ {x}, x < S.state.slabCount → x ≠ sid₀ →
      ∀ t' < (S.state.pools (S.state.slabs x).pool).slabCapacity,
        ((S.state.slabs x).pool, tagToObject (S.state.slabs x)
          (S.state.pools (S.state.slabs x).pool).blockSize t') ∈
            S.live.erase (p, tagToObject (S.state.slabs sid₀) (S.state.pools p).blockSize t) ↔
        ((S.state.slabs x).pool, tagToObject (S.state.slabs x)
          (S.state.pools (S.state.slabs x).pool).blockSize t') ∈ S.live := by
    intro x hxc hxs t' ht'
    refine List.mem_erase_of_ne fun heq => hxs ?_
    exact (hI.tagToObject_inj hxc hsid ht' (by rw [hp]; exact ht)
      (by rw [hp]; exact (Prod.mk.inj heq).2)).1
  have hlive' : ∀ {q o}, (q, o) ∈ S.live.erase
      (p, tagToObject (S.state.slabs sid₀) (S.state.pools p).blockSize t) → (q, o) ∈ S.live ∨
        (q = p ∧ ∃ t < (S.state.pools p).slabCapacity,
          o = tagToObject (S.state.slabs sid₀) (S.state.pools p).blockSize t) :=
    fun hq => Or.inl (List.mem_of_mem_erase hq)
  have hlen' : (t :: l).length + ((S.state.slabs sid₀).usedCount - 1) =
      (S.state.pools p).slabCapacity := by
    simp only [List.length_cons]
    omega
  have hpl := hpw.placed sid₀
  by_cases h0 : (S.state.slabs sid₀).usedCount - 1 = 0
  · -- the slab is unused now: to the front of `slabs_full`
    rw [if_pos h0]
    refine hI.update hsid hp rfl rfl KObjectPool.sameLayout_moveToFullFront
      KObjectPool.sameExcept_moveToFullFront hpw.nodup.moveToFullFront
      (hpw.layout.of_sameLayout KObjectPool.sameLayout_moveToFullFront
        hpw.layout.colorNext_le hpw.layout.align_dvd_colorNext) ?_
      KObjectPool.listed_moveToFullFront ⟨t :: l, hch.push htl, hlen', hchain⟩
      hother hlive' (hI.liveNodup.erase _)
    show (_ : KObjectPool).Placed sid₀ ((S.state.slabs sid₀).usedCount - 1)
    rw [h0]
    exact KObjectPool.placed_moveToFullFront hpw.nodup
  · rw [if_neg h0]
    by_cases hcap : (S.state.slabs sid₀).usedCount - 1 = (S.state.pools p).slabCapacity - 1
    · -- it was in full use: to the front of `slabs_partial`
      rw [if_pos hcap]
      have hcap0 := hpw.layout.capacity_pos
      refine hI.update hsid hp rfl rfl KObjectPool.sameLayout_moveToPartialFront
        KObjectPool.sameExcept_moveToPartialFront hpw.nodup.moveToPartialFront
        (hpw.layout.of_sameLayout KObjectPool.sameLayout_moveToPartialFront
          hpw.layout.colorNext_le hpw.layout.align_dvd_colorNext)
        ?_ KObjectPool.listed_moveToPartialFront ⟨t :: l, hch.push htl, hlen', hchain⟩
        hother hlive' (hI.liveNodup.erase _)
      show (_ : KObjectPool).Placed sid₀ ((S.state.slabs sid₀).usedCount - 1)
      exact KObjectPool.placed_moveToPartialFront hpw.nodup ⟨by omega, by omega⟩
    · -- it stays on `slabs_partial`, where a slab neither unused nor in full use was
      rw [if_neg hcap]
      refine hI.update hsid hp rfl rfl (KObjectPool.SameLayout.refl _)
        (KObjectPool.SameExcept.refl _ _) hpw.nodup hpw.layout ?_ hw.listed
        ⟨t :: l, hch.push htl, hlen', hchain⟩ hother hlive' (hI.liveNodup.erase _)
      show (S.state.pools p).Placed sid₀ ((S.state.slabs sid₀).usedCount - 1)
      refine ⟨fun he => absurd (hpl.1 he) (by omega), fun hpa => ?_,
        fun hf => absurd (hpl.2.2 hf) (by omega)⟩
      have := (hpl.2.1 hpa).2
      exact ⟨by omega, by omega⟩

end Ops

/-! ## A new slab -/

/-- The invariant does not read the page block of a slab number not yet in use. -/
theorem PoolInv.setBlock {S : PoolSys} (hI : PoolInv S) (b : Nat) :
    PoolInv ⟨S.state, S.live, Function.update S.block S.state.slabCount b⟩ where
  pool := fun hp => ⟨(hI.pool hp).layout, (hI.pool hp).nodup, (hI.pool hp).owned,
    (hI.pool hp).placed⟩
  slab := by
    intro x hx
    have hne : x ≠ S.state.slabCount := Nat.ne_of_lt hx
    exact (hI.slab hx).frame (KObjectPool.SameLayout.refl _) (hI.slab hx).listed le_rfl
      (Function.update_of_ne hne _ _) (fun _ _ => rfl) (fun _ _ => Iff.rfl)
  apart := by
    intro x y hx hy hxy
    show Apart (Function.update S.block S.state.slabCount b x) _
      (Function.update S.block S.state.slabCount b y) _
    rw [Function.update_of_ne (Nat.ne_of_lt hx), Function.update_of_ne (Nat.ne_of_lt hy)]
    exact hI.apart hx hy hxy
  live := hI.live
  liveNodup := hI.liveNodup

/-- The run after a call that added slab `slabCount` of pool `p`, with descriptor `slab`, on
the page block at `page`, changing the pool to `P'` and the page descriptors to `pages`. -/
def PoolSys.withNewSlab (S : PoolSys) (p : Nat) (P' : KObjectPool) (slab : KObjectSlab)
    (pages : Nat → PageDesc) (page : Nat) : PoolSys :=
  ⟨{ S.state with
      pools := Function.update S.state.pools p P'
      slabs := Function.update S.state.slabs S.state.slabCount slab
      slabCount := S.state.slabCount + 1
      pages }, S.live, Function.update S.block S.state.slabCount page⟩

section NewSlab

variable {S : PoolSys} {p page : Nat} {P' : KObjectPool} {slab : KObjectSlab}
  {pages : Nat → PageDesc}

@[simp] theorem withNewSlab_pools :
    (S.withNewSlab p P' slab pages page).state.pools = Function.update S.state.pools p P' := rfl

@[simp] theorem withNewSlab_slabs : (S.withNewSlab p P' slab pages page).state.slabs =
    Function.update S.state.slabs S.state.slabCount slab := rfl

@[simp] theorem withNewSlab_poolCount :
    (S.withNewSlab p P' slab pages page).state.poolCount = S.state.poolCount := rfl

@[simp] theorem withNewSlab_slabCount :
    (S.withNewSlab p P' slab pages page).state.slabCount = S.state.slabCount + 1 := rfl

@[simp] theorem withNewSlab_pages : (S.withNewSlab p P' slab pages page).state.pages = pages :=
  rfl

@[simp] theorem withNewSlab_live : (S.withNewSlab p P' slab pages page).live = S.live := rfl

@[simp] theorem withNewSlab_block : (S.withNewSlab p P' slab pages page).block =
    Function.update S.block S.state.slabCount page := rfl

/-- Adding a slab of pool `p`, unused and on `slabs_full` alone, with a chain of all its
tags, on an aligned page block apart from every other, whose pages now point at it, keeps
the invariant. -/
theorem PoolInv.addSlab (hI : PoolInv S) (hp : p < S.state.poolCount)
    (hal : 2 ^ (S.state.pools p).slabPageOrder ∣ page)
    (hapart : ∀ x < S.state.slabCount, Apart page (2 ^ (S.state.pools p).slabPageOrder)
      (S.block x) (2 ^ (S.state.pools (S.state.slabs x).pool).slabPageOrder))
    (hl : (S.state.pools p).SameLayout P')
    (hx : (S.state.pools p).SameExcept P' S.state.slabCount) (hnd : P'.ListsNodup) (hwf : P'.WF)
    (hfull : S.state.slabCount ∈ P'.slabsFull) (hplaced : P'.Placed S.state.slabCount 0)
    (hpool : slab.pool = p) (hused : slab.usedCount = 0)
    (hcolor : ∃ c, slab.data = page * pageSize + c ∧ P'.blockAlign ∣ c ∧ c ≤ P'.colorMax)
    (hbs : 0 < P'.blockSize)
    (hchain : ∃ l, Chain slab.tags slab.free l ∧ l.length = P'.slabCapacity ∧
      ∀ t, t ∈ l ↔ t < P'.slabCapacity)
    (hout : ∀ q, ¬ (page ≤ q ∧ q < page + 2 ^ (S.state.pools p).slabPageOrder) →
      pages q = S.state.pages q)
    (hin : ∀ o < 2 ^ (S.state.pools p).slabPageOrder,
      (pages (page + o)).slab = some S.state.slabCount ∧ (pages (page + o)).debugTag = pageTagSlab)
    (href : (pages page).refCount ≠ 0) :
    PoolInv (S.withNewSlab p P' slab pages page) := by
  -- no list holds the new number yet
  have hnew : ∀ {q}, q < S.state.poolCount → ¬ (S.state.pools q).Listed S.state.slabCount :=
    fun hq hlisted => Nat.lt_irrefl _ ((hI.pool hq).owned hlisted).1
  -- the pages of an old slab's block are untouched
  have hkeep : ∀ {x}, x < S.state.slabCount →
      ∀ o < 2 ^ (S.state.pools (S.state.slabs x).pool).slabPageOrder,
        pages (S.block x + o) = S.state.pages (S.block x + o) := by
    intro x hxc o ho
    apply hout
    have := hapart x hxc
    unfold Apart at this
    omega
  -- no held object lies in the new block
  have hfar : ∀ t < P'.slabCapacity, (p, tagToObject slab P'.blockSize t) ∉ S.live := by
    intro t ht hmem
    obtain ⟨x, hxc, hxq, t', ht', heq⟩ := hI.live hmem
    obtain ⟨c, hdata, -, hc⟩ := hcolor
    obtain ⟨h₁, h₂⟩ := tagToObject_mem_block hwf hdata hc ht
    rw [hl.slabPageOrder] at h₂
    have hw := hI.slab hxc
    rw [hxq] at hw
    obtain ⟨h₁', h₂'⟩ := hw.tagToObject_mem (hI.pool hp).layout ht'
    have hblocks := Apart.mul_right (hapart x hxc) pageSize
    rw [hxq] at hblocks
    unfold Apart at hblocks
    have hbs' := hw.blockSize_pos
    omega
  refine ⟨fun {q} hq => ?_, fun {x} hxn => ?_, fun {x y} hxn hyn hxy => ?_,
    fun {q o} hmem => ?_, hI.liveNodup⟩
  · rw [withNewSlab_poolCount] at hq
    by_cases hqp : q = p
    · subst hqp
      rw [withNewSlab_pools, Function.update_self]
      refine ⟨hwf, hnd, fun {x} hxl => ?_, fun x => ?_⟩ <;>
        simp only [withNewSlab_slabs, withNewSlab_slabCount]
      · by_cases hxs : x = S.state.slabCount
        · subst hxs
          rw [Function.update_self]
          exact ⟨Nat.lt_succ_self _, hpool⟩
        · rw [Function.update_of_ne hxs]
          obtain ⟨h₁, h₂⟩ := (hI.pool hq).owned ((hx.listed_iff hxs).1 hxl)
          exact ⟨Nat.lt_succ_of_lt h₁, h₂⟩
      · by_cases hxs : x = S.state.slabCount
        · subst hxs
          rw [Function.update_self, hused]
          exact hplaced
        · rw [Function.update_of_ne hxs]
          exact (hx.placed_iff hl hxs).2 ((hI.pool hq).placed x)
    · -- another pool: the new slab is not on its lists
      rw [withNewSlab_pools, Function.update_of_ne hqp]
      have hw := hI.pool hq
      refine ⟨hw.layout, hw.nodup, fun {x} hxl => ?_, fun x => ?_⟩ <;>
        simp only [withNewSlab_slabs, withNewSlab_slabCount]
      · obtain ⟨hxc, hxq⟩ := hw.owned hxl
        rw [Function.update_of_ne (Nat.ne_of_lt hxc)]
        exact ⟨Nat.lt_succ_of_lt hxc, hxq⟩
      · by_cases hxs : x = S.state.slabCount
        · subst hxs
          exact KObjectPool.Placed.of_not_listed (hnew hq)
        · rw [Function.update_of_ne hxs]
          exact hw.placed x
  · rw [withNewSlab_slabCount] at hxn
    have hsame := hl.update (Function.update S.state.slabs S.state.slabCount slab x).pool
    by_cases hxs : x = S.state.slabCount
    · -- the new slab
      subst hxs
      rw [withNewSlab_slabs, Function.update_self, withNewSlab_pools, hpool, Function.update_self]
      obtain ⟨l, hch, hlen, hmem⟩ := hchain
      refine ⟨by rw [withNewSlab_poolCount, hpool]; exact hp, hbs, ?_, ?_,
        ⟨l, hch, by rw [hused, hlen]; rfl, fun t => ?_⟩, Or.inr (Or.inr hfull), ?_, ?_⟩ <;>
        simp only [withNewSlab_block, withNewSlab_pages, withNewSlab_live, Function.update_self]
      · rw [hl.slabPageOrder]
        exact hal
      · exact hcolor
      · rw [hmem t, hpool]
        exact ⟨fun ht => ⟨ht, hfar t ht⟩, fun ht => ht.1⟩
      · intro o ho
        exact hin o (hl.slabPageOrder ▸ ho)
      · exact href
    · -- an old slab keeps its block, its pages and its place on a list
      have hxc : x < S.state.slabCount := by omega
      have hw := hI.slab hxc
      rw [Function.update_of_ne hxs] at hsame
      rw [withNewSlab_slabs, Function.update_of_ne hxs, withNewSlab_pools]
      refine hw.frame hsame ?_ le_rfl (Function.update_of_ne hxs _ _) (hkeep hxc)
        (fun _ _ => Iff.rfl)
      by_cases hxp : (S.state.slabs x).pool = p
      · rw [hxp, Function.update_self]
        rw [hxp] at hw
        exact (hx.listed_iff hxs).2 hw.listed
      · rw [Function.update_of_ne hxp]
        exact hw.listed
  · rw [withNewSlab_slabCount] at hxn hyn
    have hsx := hl.update (Function.update S.state.slabs S.state.slabCount slab x).pool
    have hsy := hl.update (Function.update S.state.slabs S.state.slabCount slab y).pool
    simp only [withNewSlab_block, withNewSlab_pools, withNewSlab_slabs]
    rw [hsx.slabPageOrder, hsy.slabPageOrder]
    by_cases hxs : x = S.state.slabCount <;> by_cases hys : y = S.state.slabCount
    · exact absurd (hxs.trans hys.symm) hxy
    · subst hxs
      rw [Function.update_self, Function.update_self, hpool, Function.update_of_ne hys,
        Function.update_of_ne hys]
      exact hapart y (by omega)
    · subst hys
      rw [Function.update_self, Function.update_self, hpool, Function.update_of_ne hxs,
        Function.update_of_ne hxs]
      exact (hapart x (by omega)).symm
    · rw [Function.update_of_ne hxs, Function.update_of_ne hxs, Function.update_of_ne hys,
        Function.update_of_ne hys]
      exact hI.apart (by omega) (by omega) hxy
  · obtain ⟨x, hxc, hxq, t, ht, rfl⟩ := hI.live hmem
    have hsq := hl.update q
    refine ⟨x, by rw [withNewSlab_slabCount]; omega, ?_, t, ?_, ?_⟩ <;>
      simp only [withNewSlab_slabs, withNewSlab_pools, Function.update_of_ne (Nat.ne_of_lt hxc)]
    · exact hxq
    · rw [hsq.slabCapacity]
      exact ht
    · rw [hsq.blockSize]

end NewSlab

/-- `k_object_pool_slab_create` for pool `p` on a fresh page block keeps the invariant, with
the new slab, unused, on `slabs_full`. -/
theorem PoolInv.slabCreate {S : PoolSys} {p page sid : Nat} {descOk : Bool} {s₁ : PoolState}
    (hI : PoolInv S) (hp : p < S.state.poolCount) (hfresh : S.BlockFresh p page)
    (h : kObjectPoolSlabCreate S.state p page descOk = some (s₁, sid)) :
    PoolInv ⟨s₁, S.live, Function.update S.block S.state.slabCount page⟩ ∧
      sid ∈ (s₁.pools p).slabsFull ∧ s₁.poolCount = S.state.poolCount := by
  obtain ⟨pages, slab, htag, rfl, hloop, rfl⟩ := kObjectPoolSlabCreate_inv h
  have hpages := pageAllocBlockTag_eq htag
  have hpw := hI.pool hp
  obtain ⟨hpool, hdata, hused, hbs, l, hch, hlen, hmem⟩ :=
    kObjectPoolSlabInitObjects_spec (S.state.pools p).slabCapacity 0
      { pool := p, data := page * pageSize + (S.state.pools p).colorNext, free := none,
        usedCount := 0, tags := fun _ => none } slab []
      (by rw [show tagToObject _ _ 0 = page * pageSize + (S.state.pools p).colorNext by
            simp [tagToObject]]
          exact hloop) Chain.nil (fun _ h => absurd h List.not_mem_nil)
  dsimp only at hpool hdata hused
  have hbs := hbs hpw.layout.capacity_pos
  -- the new slab's number is on no list yet
  have hfreshId : ∀ {q}, q < S.state.poolCount → ¬ (S.state.pools q).Listed S.state.slabCount :=
    fun hq hl => Nat.lt_irrefl _ ((hI.pool hq).owned hl).1
  have hn := hfreshId hp
  subst hpages
  refine ⟨?_, by simp, rfl⟩
  apply hI.addSlab hp hfresh.1 hfresh.2
  · exact ⟨rfl, rfl, rfl, rfl, rfl, rfl⟩
  · refine ⟨fun _ => Iff.rfl, fun _ => Iff.rfl, fun hxs => ?_⟩
    simp [hxs]
  · refine ⟨hpw.nodup.empty, hpw.nodup.part, List.nodup_append.2 ⟨hpw.nodup.full,
      List.nodup_singleton _, ?_⟩⟩
    rintro a ha b hb rfl
    exact hn (Or.inr (Or.inr (List.mem_singleton.1 hb ▸ ha)))
  · -- `color_next` steps by the alignment and wraps to 0 past `color_max`
    refine hpw.layout.of_sameLayout ⟨rfl, rfl, rfl, rfl, rfl, rfl⟩ ?_ ?_ <;> dsimp only <;>
      split_ifs with hc
    · exact Nat.zero_le _
    · omega
    · exact dvd_zero _
    · exact Nat.dvd_add hpw.layout.align_dvd_colorNext dvd_rfl
  · exact List.mem_append_right _ (List.mem_singleton_self _)
  · exact ⟨fun h => (hn (Or.inl h)).elim, fun h => (hn (Or.inr (Or.inl h))).elim, fun _ => rfl⟩
  · exact hpool
  · exact hused
  · exact ⟨_, hdata, hpw.layout.align_dvd_colorNext, hpw.layout.colorNext_le⟩
  · exact hbs
  · refine ⟨l, hch, hlen.trans (Nat.zero_add _), fun t => ?_⟩
    rw [hmem t]
    simp
  · intro q hq
    have hne : q ≠ page := by
      rintro rfl
      exact hq ⟨Nat.le_refl _, Nat.lt_add_of_pos_right (Nat.two_pow_pos _)⟩
    simp only [Function.update_of_ne hne, if_neg hq]
  · intro o ho
    have hin : page ≤ page + o ∧ page + o < page + 2 ^ (S.state.pools p).slabPageOrder :=
      ⟨Nat.le_add_right _ _, by omega⟩
    by_cases ho0 : page + o = page
    · rw [ho0, Function.update_self]
      rw [ho0] at hin
      simp only [if_pos hin, and_self]
    · simp only [Function.update_of_ne ho0, if_pos hin, and_self]
  · rw [Function.update_self]
    exact Nat.succ_ne_zero _

/-! ## Whole runs -/

section Runs

variable {S S' : PoolSys} {p page obj : Nat} {descOk : Bool} {s' : PoolState}

/-- `k_object_pool_slab_get` on a slab of pool `p`, moved first to the back of
`slabs_partial`, keeps the invariant. -/
theorem PoolInv.slabGet_of_listed {sid : Nat} (hI : PoolInv S) (hp : p < S.state.poolCount)
    (hlisted : (S.state.pools p).Listed sid)
    (h : kObjectPoolSlabGet
      { S.state with
        pools := Function.update S.state.pools p ((S.state.pools p).moveToPartialBack sid) } sid =
        some (s', obj)) :
    PoolInv ⟨s', (p, obj) :: S.live, S.block⟩ := by
  have hpw := hI.pool hp
  obtain ⟨hsid, hsp⟩ := hpw.owned hlisted
  exact hI.slabGet hsid hsp KObjectPool.sameLayout_moveToPartialBack
    KObjectPool.sameExcept_moveToPartialBack hpw.nodup.moveToPartialBack
    (hpw.layout.of_sameLayout KObjectPool.sameLayout_moveToPartialBack hpw.layout.colorNext_le
      hpw.layout.align_dvd_colorNext)
    (fun _ hu hu' => KObjectPool.placed_moveToPartialBack hpw.nodup ⟨hu, hu'⟩)
    KObjectPool.listed_moveToPartialBack h

/-- `k_object_pool_get` on pool `p`, with a fresh page block at hand, keeps the invariant. -/
theorem PoolInv.get (hI : PoolInv S) (hp : p < S.state.poolCount)
    (hfresh : S.BlockFresh p page) (h : kObjectPoolGet S.state p page descOk = some (s', obj)) :
    PoolInv ⟨s', (p, obj) :: S.live, Function.update S.block S.state.slabCount page⟩ := by
  rcases kObjectPoolGet_inv h with ⟨sid, rest, hpart, hget⟩ | ⟨-, S₁, sid, hsrc, hget⟩
  · -- the head of `slabs_partial` hands out a block where it stands
    have hpw := hI.pool hp
    have hmem : sid ∈ (S.state.pools p).slabsPartial := by
      rw [hpart]
      exact List.mem_cons_self
    obtain ⟨hsid, hsp⟩ := hpw.owned (Or.inr (Or.inl hmem))
    have hI' := hI.slabGet hsid hsp (KObjectPool.SameLayout.refl _)
      (KObjectPool.SameExcept.refl _ _) hpw.nodup hpw.layout
      (fun _ hu hu' => (hpw.placed sid).of_mem_slabsPartial hmem ⟨hu, hu'⟩) (Or.inr (Or.inl hmem))
      (by rw [Function.update_eq_self]; exact hget)
    have := hI'.setBlock page
    rwa [kObjectPoolSlabGet_slabCount hget] at this
  · rcases hsrc with ⟨rest, hfull, rfl⟩ | ⟨-, hcreate⟩
    · -- the head of `slabs_full`
      have hmem : sid ∈ (S.state.pools p).slabsFull := by
        rw [hfull]
        exact List.mem_cons_self
      have := (hI.slabGet_of_listed hp (Or.inr (Or.inr hmem)) hget).setBlock page
      rwa [kObjectPoolSlabGet_slabCount hget] at this
    · -- a new slab on the fresh block
      obtain ⟨hI₁, hmem, hcount⟩ := hI.slabCreate hp hfresh hcreate
      exact hI₁.slabGet_of_listed (hcount ▸ hp) (Or.inr (Or.inr hmem)) hget

/-- `k_object_pool_init` adds a pool with no slabs, which keeps the invariant. -/
theorem PoolInv.init {size align : Nat} {pool : KObjectPool} (hI : PoolInv S)
    (h : kObjectPoolInit size align = some pool) :
    PoolInv ⟨{ S.state with
      pools := Function.update S.state.pools S.state.poolCount pool
      poolCount := S.state.poolCount + 1 }, S.live, S.block⟩ := by
  obtain ⟨hwf, he, hpa, hf⟩ := kObjectPoolInit_wf h
  -- every slab belongs to an older pool
  have hold : ∀ {x}, x < S.state.slabCount →
      Function.update S.state.pools S.state.poolCount pool (S.state.slabs x).pool =
        S.state.pools (S.state.slabs x).pool :=
    fun hx => Function.update_of_ne (Nat.ne_of_lt (hI.slab hx).pool_lt) _ _
  refine ⟨fun {q} hq => ?_, fun {x} hx => ?_, fun {x y} hx hy hxy => ?_,
    fun {q o} hmem => ?_, hI.liveNodup⟩ <;> dsimp only at *
  · by_cases hqn : q = S.state.poolCount
    · subst hqn
      rw [Function.update_self]
      refine ⟨hwf, ⟨by rw [he]; exact List.nodup_nil, by rw [hpa]; exact List.nodup_nil,
        by rw [hf]; exact List.nodup_nil⟩, fun {x} hxl => ?_, fun x => ?_⟩
      · simp [KObjectPool.Listed, he, hpa, hf] at hxl
      · simp [KObjectPool.Placed, he, hpa, hf]
    · rw [Function.update_of_ne hqn]
      have hw := hI.pool (show q < S.state.poolCount by omega)
      exact ⟨hw.layout, hw.nodup, hw.owned, hw.placed⟩
  · rw [hold hx]
    have hw := hI.slab hx
    exact hw.frame (KObjectPool.SameLayout.refl _) hw.listed (Nat.le_succ _) rfl
      (fun _ _ => rfl) (fun _ _ => Iff.rfl)
  · rw [hold hx, hold hy]
    exact hI.apart hx hy hxy
  · obtain ⟨x, hxc, rfl, t, ht, rfl⟩ := hI.live hmem
    refine ⟨x, hxc, rfl, t, ?_, ?_⟩ <;> rw [hold hxc]
    exact ht

theorem PoolInv.boot (pages : Nat → PageDesc) :
    PoolInv ⟨⟨fun _ => default, 0, fun _ => default, 0, pages⟩, [], fun _ => 0⟩ where
  pool := fun hp => absurd hp (Nat.not_lt_zero _)
  slab := fun hs => absurd hs (Nat.not_lt_zero _)
  apart := fun hs => absurd hs (Nat.not_lt_zero _)
  live := fun hmem => absurd hmem List.not_mem_nil
  liveNodup := List.nodup_nil

/-- Every call keeps the invariant. -/
theorem PoolInv.step (hI : PoolInv S) (hs : PoolStep S S') : PoolInv S' := by
  cases hs with
  | init size align h => exact hI.init h
  | get p page descOk hp hfresh h => exact hI.get hp hfresh h
  | put p obj hlive h => exact hI.put hlive h

/-- The invariant holds in every reachable state. -/
theorem PoolReachable.inv {pages : Nat → PageDesc} (h : PoolReachable pages S) : PoolInv S := by
  induction h with
  | boot => exact PoolInv.boot pages
  | step _ hs ih => exact ih.step hs

end Runs

end Argentum.Mm
