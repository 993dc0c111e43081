import Argentum.Mm.ObjectPoolInvariant

/-!
# Argentum.Mm.ObjectPoolOps

One inversion lemma per operation of the slab allocator: what a call that returns has
checked and what state it has built. The invariant proofs in `Argentum.Mm.ObjectPoolRun`
read the operations through these and never unfold them.

`kObjectPoolSlabInitObjects_spec` is the loop of `k_object_pool_slab_create`: it chains
the tags `i .. i + n` in front of a chain of smaller tags. `roundDown_eq_of_mem` is the
address arithmetic of `k_object_pool_put`: rounding an address inside an aligned span down
to the span's size finds the span's start.
-/

namespace Argentum.Mm

open AlignedBlock LinkedChain

/-! ## Slab creation -/

theorem objectToTag_tagToObject (slab : KObjectSlab) {blockSize : Nat} (hbs : 0 < blockSize)
    (t : Nat) : objectToTag slab blockSize (tagToObject slab blockSize t) = some t := by
  unfold objectToTag tagToObject
  rw [if_neg (Nat.pos_iff_ne_zero.1 hbs), Nat.add_sub_cancel_left,
    Nat.mul_div_cancel_left _ hbs]

/-- The loop of `k_object_pool_slab_create`, entered at block `i` over a chain of tags
below `i`, links tags `i .. i + n` in front of it, the last one first. -/
theorem kObjectPoolSlabInitObjects_spec {blockSize slabEnd : Nat} (n : Nat) :
    ∀ (i : Nat) (slab slab' : KObjectSlab) (l : List Nat),
      kObjectPoolSlabInitObjects blockSize slabEnd n (tagToObject slab blockSize i) slab =
          some slab' →
      Chain slab.tags slab.free l → (∀ t ∈ l, t < i) →
      slab'.pool = slab.pool ∧ slab'.data = slab.data ∧ slab'.usedCount = slab.usedCount ∧
        (0 < n → 0 < blockSize) ∧
        ∃ l', Chain slab'.tags slab'.free l' ∧ l'.length = l.length + n ∧
          ∀ t, t ∈ l' ↔ t ∈ l ∨ (i ≤ t ∧ t < i + n) := by
  induction n with
  | zero =>
    intro i slab slab' l h hch _
    cases h
    refine ⟨rfl, rfl, rfl, fun h0 => absurd h0 (Nat.lt_irrefl 0), l, hch, rfl, fun t => ?_⟩
    exact ⟨Or.inl, fun ht => ht.resolve_right (by omega)⟩
  | succ n ih =>
    intro i slab slab' l h hch hlt
    rcases Nat.eq_zero_or_pos blockSize with hbs | hbs
    · simp [kObjectPoolSlabInitObjects, objectToTag, hbs] at h
    rw [kObjectPoolSlabInitObjects, objectToTag_tagToObject slab hbs] at h
    dsimp only at h
    split at h
    · -- the block fits: tag `i` goes in front, and the loop goes on from block `i + 1`
      have hi : i ∉ l := fun hmem => Nat.lt_irrefl i (hlt i hmem)
      have hnext : tagToObject slab blockSize i + blockSize =
          tagToObject { slab with tags := Function.update slab.tags i slab.free, free := some i }
            blockSize (i + 1) := by
        simp only [tagToObject, Nat.mul_succ, Nat.add_assoc]
      rw [hnext] at h
      obtain ⟨hpool, hdata, hused, -, l', hch', hlen, hmem⟩ :=
        ih (i + 1) _ slab' (i :: l) h (hch.push hi) (fun t ht => by
          rcases List.mem_cons.1 ht with rfl | ht
          · exact Nat.lt_succ_self t
          · exact Nat.lt_succ_of_lt (hlt t ht))
      refine ⟨hpool, hdata, hused, fun _ => hbs, l', hch', by rw [hlen, List.length_cons]; omega,
        fun t => ?_⟩
      rw [hmem t, List.mem_cons]
      constructor
      · rintro ((rfl | ht) | ⟨ht₁, ht₂⟩)
        · exact Or.inr ⟨Nat.le_refl t, by omega⟩
        · exact Or.inl ht
        · exact Or.inr ⟨by omega, by omega⟩
      · rintro (ht | ⟨ht₁, ht₂⟩)
        · exact Or.inl (Or.inr ht)
        · rcases Nat.eq_or_lt_of_le ht₁ with rfl | ht₁
          · exact Or.inl (Or.inl rfl)
          · exact Or.inr ⟨ht₁, by omega⟩
    · contradiction

/-- What `page_alloc_block`'s tagging loop leaves in the descriptors. -/
theorem pageAllocBlockTag_eq {pages pages' : Nat → PageDesc} {page order tag : Nat}
    (h : pageAllocBlockTag pages page order tag = some pages') :
    pages' = fun q => if page ≤ q ∧ q < page + 2 ^ order then { pages q with debugTag := tag }
      else pages q := by
  unfold pageAllocBlockTag at h
  split at h
  · exact (Option.some.inj h).symm
  · contradiction

/-- `k_object_pool_slab_create` inverted: a new slab numbered `slabCount`, built by the
object loop, at the colour offset `color_next`; the pool's colour advances and the slab
goes to the back of `slabs_full`; the block's pages are stamped and point at the slab. -/
theorem kObjectPoolSlabCreate_inv {S S' : PoolState} {p page sid : Nat} {descOk : Bool}
    (h : kObjectPoolSlabCreate S p page descOk = some (S', sid)) :
    ∃ pages slab,
      pageAllocBlockTag S.pages page (S.pools p).slabPageOrder pageTagSlab = some pages ∧
      sid = S.slabCount ∧
      kObjectPoolSlabInitObjects (S.pools p).blockSize
          (page * pageSize + (pageSize <<< (S.pools p).slabPageOrder) - (S.pools p).onSlabSize)
          (S.pools p).slabCapacity (page * pageSize + (S.pools p).colorNext)
          { pool := p, data := page * pageSize + (S.pools p).colorNext, free := none,
            usedCount := 0, tags := fun _ => none } = some slab ∧
      S' = { S with
        pools := Function.update S.pools p
          { S.pools p with
            colorNext :=
              if (S.pools p).colorNext + (S.pools p).blockAlign > (S.pools p).colorMax then 0
              else (S.pools p).colorNext + (S.pools p).blockAlign
            slabsFull := (S.pools p).slabsFull ++ [sid] }
        slabs := Function.update S.slabs sid slab
        slabCount := sid + 1
        pages := Function.update
          (fun q => if page ≤ q ∧ q < page + 2 ^ (S.pools p).slabPageOrder then
            { pages q with slab := some sid } else pages q) page
          { pages page with slab := some sid, refCount := (pages page).refCount + 1 } } := by
  unfold kObjectPoolSlabCreate at h
  dsimp only at h
  split at h
  · contradiction
  · rename_i pages hpages
    split at h
    · contradiction
    · split at h
      · contradiction
      · rename_i slab hslab
        simp only [Option.some.injEq, Prod.mk.injEq] at h
        obtain ⟨rfl, rfl⟩ := h
        refine ⟨pages, slab, hpages, rfl, hslab, ?_⟩
        simp [Nat.lt_add_of_pos_right (Nat.two_pow_pos _)]

/-- `k_object_pool_slab_create` keeps every pool's largest colour offset. -/
theorem kObjectPoolSlabCreate_colorMax {S S' : PoolState} {p page sid : Nat} {descOk : Bool}
    (h : kObjectPoolSlabCreate S p page descOk = some (S', sid)) (q : Nat) :
    (S'.pools q).colorMax = (S.pools q).colorMax := by
  obtain ⟨-, -, -, -, -, rfl⟩ := kObjectPoolSlabCreate_inv h
  by_cases hq : q = p
  · subst hq
    simp
  · simp [Function.update_of_ne hq]

/-- The object loop of `k_object_pool_slab_create` runs to its end when its `n` blocks from
`p` end by `slabEnd`: the `k_assert` after each block holds. -/
theorem kObjectPoolSlabInitObjects_isSome {blockSize slabEnd : Nat} (hbs : 0 < blockSize) :
    ∀ (n p : Nat) (slab : KObjectSlab), p + n * blockSize ≤ slabEnd →
      (kObjectPoolSlabInitObjects blockSize slabEnd n p slab).isSome
  | 0, _, _, _ => rfl
  | n + 1, p, slab, hend => by
    rw [Nat.succ_mul] at hend
    rw [kObjectPoolSlabInitObjects, objectToTag, if_neg (Nat.pos_iff_ne_zero.1 hbs)]
    dsimp only
    rw [if_pos (by omega)]
    exact kObjectPoolSlabInitObjects_isSome hbs n (p + blockSize) _ (by omega)

/-- For a well laid out pool of non-empty blocks, `k_object_pool_slab_create` fails only
where the source returns `NULL`: the page allocator has no block, or `k_malloc` no off-slab
descriptor. -/
theorem kObjectPoolSlabCreate_isSome {S : PoolState} {p page : Nat} {descOk : Bool}
    {pages : Nat → PageDesc} (hP : (S.pools p).WF) (hbs : 0 < (S.pools p).blockSize)
    (htag : pageAllocBlockTag S.pages page (S.pools p).slabPageOrder pageTagSlab = some pages)
    (hdesc : (S.pools p).offSlab = false ∨ descOk = true) :
    (kObjectPoolSlabCreate S p page descOk).isSome := by
  have hfits := hP.fits
  have hcolor := hP.colorNext_le
  -- every block, from the colour offset on, ends before the on-slab descriptor
  have hloop := @kObjectPoolSlabInitObjects_isSome _
    (page * pageSize + (pageSize <<< (S.pools p).slabPageOrder) - (S.pools p).onSlabSize) hbs
    (S.pools p).slabCapacity (page * pageSize + (S.pools p).colorNext)
    { pool := p, data := page * pageSize + (S.pools p).colorNext, free := none,
      usedCount := 0, tags := fun _ => none } (by omega)
  obtain ⟨slab, hslab⟩ := Option.isSome_iff_exists.1 hloop
  have hoff : ¬ ((S.pools p).offSlab = true ∧ descOk = false) := by
    rintro ⟨h₁, h₂⟩
    rcases hdesc with h | h <;> simp_all
  unfold kObjectPoolSlabCreate
  simp only [htag, hoff, if_false, hslab, Option.isSome_some]

/-! ## Getting and putting objects -/

/-- Rounding an address inside an aligned span down to the span's size finds its start. -/
theorem roundDown_eq_of_mem {x b n : Nat} (hal : n ∣ b) (h₁ : b ≤ x) (h₂ : x < b + n) :
    roundDown x n = b := by
  obtain ⟨k, rfl⟩ := hal
  have hx : x = (x - n * k) + n * k := by omega
  have hmod : x % n = x - n * k := by
    rw [hx, Nat.add_mul_mod_self_left, Nat.mod_eq_of_lt (by omega)]
    omega
  unfold roundDown
  omega

/-- `k_object_pool_slab_get` inverted: the head `t` of the free chain is taken and its
block returned; a slab that is now in full use moves to `slabs_empty`, with an empty
chain. -/
theorem kObjectPoolSlabGet_inv {S S' : PoolState} {sid obj : Nat}
    (h : kObjectPoolSlabGet S sid = some (S', obj)) :
    ∃ t, (S.slabs sid).free = some t ∧
      (S.slabs sid).usedCount < (S.pools (S.slabs sid).pool).slabCapacity ∧
      ((S.slabs sid).usedCount + 1 = (S.pools (S.slabs sid).pool).slabCapacity →
        (S.slabs sid).tags t = none) ∧
      obj = tagToObject (S.slabs sid) (S.pools (S.slabs sid).pool).blockSize t ∧
      S' = { S with
        pools := Function.update S.pools (S.slabs sid).pool
          (if (S.slabs sid).usedCount + 1 = (S.pools (S.slabs sid).pool).slabCapacity then
            (S.pools (S.slabs sid).pool).moveToEmpty sid else S.pools (S.slabs sid).pool)
        slabs := Function.update S.slabs sid
          { (S.slabs sid) with
            free := (S.slabs sid).tags t
            usedCount := (S.slabs sid).usedCount + 1 } } := by
  unfold kObjectPoolSlabGet at h
  dsimp only at h
  split at h
  · rename_i hok
    split at h
    · contradiction
    · rename_i t hfree
      refine ⟨t, hfree, hok.2, ?_⟩
      split at h
      · rename_i hfull
        split at h
        · rename_i hnone
          simp only [Option.some.injEq, Prod.mk.injEq] at h
          obtain ⟨rfl, rfl⟩ := h
          exact ⟨fun _ => hnone, rfl, by simp [hfull]⟩
        · contradiction
      · rename_i hfull
        simp only [Option.some.injEq, Prod.mk.injEq] at h
        obtain ⟨rfl, rfl⟩ := h
        refine ⟨fun h' => absurd h' hfull, rfl, ?_⟩
        simp [hfull]
  · contradiction

theorem kObjectPoolSlabGet_slabCount {S S' : PoolState} {sid obj : Nat}
    (h : kObjectPoolSlabGet S sid = some (S', obj)) : S'.slabCount = S.slabCount := by
  obtain ⟨_, _, _, _, _, rfl⟩ := kObjectPoolSlabGet_inv h
  rfl

/-- `k_object_pool_slab_get` returns on a slab with a block to spare whose data start on the
first page `b` of its block: the block's pages are tagged, the first is referenced, and the
free chain holds one tag for each unused block. -/
theorem kObjectPoolSlabGet_exists {S : PoolState} {sid b c : Nat} {l : List Nat}
    (hdata : (S.slabs sid).data = b * pageSize + c) (hc : c < pageSize)
    (htags : ∀ o < 2 ^ (S.pools (S.slabs sid).pool).slabPageOrder,
      (S.pages (b + o)).debugTag = pageTagSlab)
    (href : (S.pages b).refCount ≠ 0)
    (hch : Chain (S.slabs sid).tags (S.slabs sid).free l)
    (hlen : l.length + (S.slabs sid).usedCount = (S.pools (S.slabs sid).pool).slabCapacity)
    (hused : (S.slabs sid).usedCount < (S.pools (S.slabs sid).pool).slabCapacity) :
    ∃ S' obj, kObjectPoolSlabGet S sid = some (S', obj) := by
  -- `kva2page(slab->data)` is the first page of the block
  have hpage : (S.slabs sid).data / pageSize = b := by
    rw [hdata]
    unfold pageSize at hc ⊢
    omega
  have hassert : pageAssert S.pages ((S.slabs sid).data / pageSize)
      (S.pools (S.slabs sid).pool).slabPageOrder pageTagSlab = true := by
    rw [hpage]
    simp only [pageAssert, Bool.and_eq_true, List.all_eq_true, List.mem_range, beq_iff_eq,
      bne_iff_ne, ne_eq]
    exact ⟨htags, href⟩
  -- a block to spare means a nonempty chain, and the last spare block ends it
  obtain ⟨t, hfree⟩ := Option.ne_none_iff_exists'.1 fun hnone => by
    rw [hch.eq_none_iff.1 hnone, List.length_nil] at hlen
    omega
  obtain ⟨l', rfl, hch'⟩ := Chain.some_iff.1 (hfree ▸ hch)
  have hlast : (S.slabs sid).usedCount + 1 = (S.pools (S.slabs sid).pool).slabCapacity →
      (S.slabs sid).tags t = none := fun hfull => by
    rw [List.length_cons] at hlen
    exact hch'.eq_none_iff.2 (List.eq_nil_of_length_eq_zero (by omega))
  unfold kObjectPoolSlabGet
  rw [if_pos ⟨hassert, hused⟩, hfree]
  dsimp only
  split_ifs with hfull hnone
  · exact ⟨_, _, rfl⟩
  · exact absurd (hlast hfull) hnone
  · exact ⟨_, _, rfl⟩

/-- `k_object_pool_slab_put` inverted: the object's tag is linked in front of the free
chain and the use count drops; the slab moves to the front of `slabs_full` when unused,
to the front of `slabs_partial` when it was in full use. -/
theorem kObjectPoolSlabPut_inv {S S' : PoolState} {sid obj : Nat}
    (h : kObjectPoolSlabPut S sid obj = some S') :
    0 < (S.slabs sid).usedCount ∧ 0 < (S.pools (S.slabs sid).pool).blockSize ∧
      S' = { S with
        pools := Function.update S.pools (S.slabs sid).pool
          (if (S.slabs sid).usedCount - 1 = 0 then
            (S.pools (S.slabs sid).pool).moveToFullFront sid
          else if (S.slabs sid).usedCount - 1 = (S.pools (S.slabs sid).pool).slabCapacity - 1 then
            (S.pools (S.slabs sid).pool).moveToPartialFront sid
          else S.pools (S.slabs sid).pool)
        slabs := Function.update S.slabs sid
          { (S.slabs sid) with
            tags := Function.update (S.slabs sid).tags
              ((obj - (S.slabs sid).data) / (S.pools (S.slabs sid).pool).blockSize)
              (S.slabs sid).free
            free := some ((obj - (S.slabs sid).data) / (S.pools (S.slabs sid).pool).blockSize)
            usedCount := (S.slabs sid).usedCount - 1 } } := by
  unfold kObjectPoolSlabPut at h
  dsimp only at h
  split at h
  · rename_i hok
    split at h
    · contradiction
    · rename_i t ht
      unfold objectToTag at ht
      split at ht
      · contradiction
      · rename_i hbs
        cases ht
        exact ⟨hok.1, Nat.pos_of_ne_zero hbs, (Option.some.inj h).symm⟩
  · contradiction

/-- `k_object_pool_put` inverted: the slab is the one the first page of the rounded-down
address names. -/
theorem kObjectPoolPut_inv {S S' : PoolState} {p obj : Nat}
    (h : kObjectPoolPut S p obj = some S') :
    ∃ sid, (S.pages (roundDown obj (pageSize <<< (S.pools p).slabPageOrder) / pageSize)).slab =
      some sid ∧ kObjectPoolSlabPut S sid obj = some S' := by
  unfold kObjectPoolPut at h
  dsimp only at h
  split at h
  · split at h
    · contradiction
    · rename_i sid hsid
      exact ⟨sid, hsid, h⟩
  · contradiction

/-- `k_object_pool_get` inverted: from the head of `slabs_partial`; or, with that list
empty, from the head of `slabs_full` or a new slab, moved to the back of `slabs_partial`
first. -/
theorem kObjectPoolGet_inv {S S' : PoolState} {p page obj : Nat} {descOk : Bool}
    (h : kObjectPoolGet S p page descOk = some (S', obj)) :
    (∃ sid rest, (S.pools p).slabsPartial = sid :: rest ∧
        kObjectPoolSlabGet S sid = some (S', obj)) ∨
      ((S.pools p).slabsPartial = [] ∧ ∃ S₁ sid,
        ((∃ rest, (S.pools p).slabsFull = sid :: rest ∧ S₁ = S) ∨
          ((S.pools p).slabsFull = [] ∧ kObjectPoolSlabCreate S p page descOk = some (S₁, sid))) ∧
        kObjectPoolSlabGet
          { S₁ with pools := Function.update S₁.pools p ((S₁.pools p).moveToPartialBack sid) } sid =
            some (S', obj)) := by
  unfold kObjectPoolGet at h
  split at h
  · rename_i sid rest hpart
    exact Or.inl ⟨sid, rest, hpart, h⟩
  · rename_i hpart
    refine Or.inr ⟨hpart, ?_⟩
    dsimp only at h
    cases hfull : (S.pools p).slabsFull with
    | cons sid rest =>
      rw [hfull] at h
      exact ⟨S, sid, Or.inl ⟨rest, rfl, rfl⟩, h⟩
    | nil =>
      rw [hfull] at h
      dsimp only at h
      cases hc : kObjectPoolSlabCreate S p page descOk with
      | none =>
        rw [hc] at h
        contradiction
      | some r =>
        obtain ⟨S₁, sid⟩ := r
        rw [hc] at h
        exact ⟨S₁, sid, Or.inr ⟨rfl, rfl⟩, h⟩

/-- `k_malloc` that returns an object took it from the smallest anonymous pool that fits. -/
theorem kMalloc_inv {S S' : PoolState} {anonPools : Nat → Nat} {size page obj : Nat}
    {descOk : Bool} (h : kMalloc S anonPools size page descOk = some (S', some obj)) :
    ∃ i < anonPoolsLength, size ≤ anonPoolsMinSize <<< i ∧
      kObjectPoolGet S (anonPools i) page descOk = some (S', obj) := by
  unfold kMalloc at h
  split at h
  · simp at h
  · rename_i i hfind
    have hi := List.mem_range.1 (List.mem_of_find?_eq_some hfind)
    have hsize : size ≤ anonPoolsMinSize <<< i := by simpa using List.find?_some hfind
    obtain ⟨⟨S₁, obj₁⟩, hget, heq⟩ := Option.map_eq_some_iff.1 h
    simp only [Option.some.injEq, Prod.mk.injEq] at heq
    obtain ⟨rfl, rfl⟩ := heq
    exact ⟨i, hi, hsize, hget⟩

end Argentum.Mm
