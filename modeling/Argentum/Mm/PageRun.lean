import Argentum.Mm.PageLoops

/-!
# Argentum.Mm.PageRun

The buddy allocator over whole runs: boot through `page_init_low` and `page_init_high`,
then any sequence of `page_alloc_block` and `page_free_block` calls, each free of a block
handed out with that same order.

`PageInv` adds to the representation invariant `PageWF` the page count and the blocks the
clients hold: they are aligned, in range, pairwise disjoint and disjoint from every free
block. `PageInv.step` proves one call keeps it and `page_buddy_invariant` lifts that to
every reachable state, together with what a call of `page_alloc_block` then returns.

`page_free_region` is its own loop (`pageFreeRegionLoop_spec`): every block it frees is
the largest aligned block that fits (`pageRegionOrder_spec`), and the part of the region
still to be freed stays clear of the free lists while blocks merge around it.
-/

namespace Argentum.Mm

open AlignedBlock

/-! ## `page_free_region` -/

theorem pageRegionOrder_spec (pageIdx lastPageIdx n : Nat) (hlt : pageIdx < lastPageIdx) :
    pageRegionOrder pageIdx lastPageIdx n ≤ n ∧
      2 ^ pageRegionOrder pageIdx lastPageIdx n ∣ pageIdx ∧
      pageIdx + 2 ^ pageRegionOrder pageIdx lastPageIdx n ≤ lastPageIdx := by
  induction n with
  | zero =>
    simp only [pageRegionOrder, Nat.pow_zero]
    exact ⟨le_rfl, Nat.one_dvd _, hlt⟩
  | succ n ih =>
    rw [pageRegionOrder]
    split
    · rename_i hfit
      rw [Nat.and_two_pow_sub_one_eq_mod] at hfit
      exact ⟨le_rfl, Nat.dvd_of_mod_eq_zero hfit.1, hfit.2⟩
    · exact ⟨by omega, ih.2⟩

/-- The loop of `page_free_region` over `[pageIdx, lastPageIdx)`, when no page of the
range is free, returns a well-formed, correctly counted state; spans clear of the free
lists and apart from the range stay clear. -/
theorem pageFreeRegionLoop_spec (lastPageIdx : Nat) (s : PageState) (pageIdx : Nat)
    (h : PageWF s) (hcount : s.freeCount = pageFreeTotal s) (hlast : lastPageIdx ≤ s.pageCount)
    (hc : pageIdx < lastPageIdx → s.Clear pageIdx (lastPageIdx - pageIdx)) :
    ∃ s', pageFreeRegionLoop s pageIdx lastPageIdx = some s' ∧ PageWF s' ∧
      s'.freeCount = pageFreeTotal s' ∧ s'.pageCount = s.pageCount ∧
      ∀ {x k}, 0 < k → (pageIdx < lastPageIdx → Apart x k pageIdx (lastPageIdx - pageIdx)) →
        s.Clear x k → s'.Clear x k := by
  induction s, pageIdx using pageFreeRegionLoop.induct lastPageIdx with
  | case1 s pageIdx hlt ih =>
    rw [pageFreeRegionLoop, if_pos hlt]
    obtain ⟨hle, hal, hfit⟩ := pageRegionOrder_spec pageIdx lastPageIdx pageOrderMax hlt
    generalize pageRegionOrder pageIdx lastPageIdx pageOrderMax = o at hle hal hfit ih ⊢
    have hcr : s.Clear pageIdx (lastPageIdx - pageIdx) := hc hlt
    have hpos := Nat.two_pow_pos o
    obtain ⟨s₁, hfree, hf⟩ :=
      pageFreeBlock_spec h hcount hle hal (by omega) (hcr.mono le_rfl (by omega))
    -- the rest of the range is apart from the freed block, so it stays clear
    obtain ⟨s', hrun, hwf, hcnt, hpc, hframe⟩ := ih s₁ hf.wf hf.count
      (by rw [hf.pageCount]; exact hlast)
      (fun hlt' => hf.frame (by omega) (Or.inr le_rfl) (hcr.mono (by omega) (by omega)))
    refine ⟨s', by rw [hfree]; exact hrun, hwf, hcnt, by rw [hpc, hf.pageCount], ?_⟩
    intro x k hk hx hcx
    exact hframe hk (fun _ => (hx hlt).mono (by omega) (by omega))
      (hf.frame hk ((hx hlt).mono le_rfl (by omega)) hcx)
  | case2 s pageIdx hge =>
    exact ⟨s, by rw [pageFreeRegionLoop, if_neg hge], h, hcount, rfl, fun _ _ hcx => hcx⟩

/-! ## The blocks of `page_free_region` -/

/-- No order between the one the search of `page_free_region` stops at and where it starts
gives a block that is aligned at `pageIdx` and ends by `lastPageIdx`. -/
theorem pageRegionOrder_max (pageIdx lastPageIdx : Nat) :
    ∀ n o, pageRegionOrder pageIdx lastPageIdx n < o → o ≤ n →
      ¬ (2 ^ o ∣ pageIdx ∧ pageIdx + 2 ^ o ≤ lastPageIdx)
  | 0, o, h, ho => by
    rw [pageRegionOrder] at h
    omega
  | n + 1, o, h, ho => by
    rw [pageRegionOrder] at h
    split at h
    · omega
    · rename_i hno
      rcases Nat.lt_or_ge o (n + 1) with hlt | hge
      · exact pageRegionOrder_max pageIdx lastPageIdx n o h (by omega)
      · -- the order the search tried first
        obtain rfl : o = n + 1 := by omega
        rw [Nat.and_two_pow_sub_one_eq_mod] at hno
        exact fun ⟨hd, hfit⟩ => hno ⟨Nat.mod_eq_zero_of_dvd hd, hfit⟩

/-- The calls `page_free_block(&pages[idx], order)` that the loop of `page_free_region` makes
over `[pageIdx, lastPageIdx)`, in order, as `(idx, order)`. -/
def pageRegionBlocks (pageIdx lastPageIdx : Nat) : List (Nat × Nat) :=
  if pageIdx < lastPageIdx then
    (pageIdx, pageRegionOrder pageIdx lastPageIdx pageOrderMax) ::
      pageRegionBlocks (pageIdx + 2 ^ pageRegionOrder pageIdx lastPageIdx pageOrderMax)
        lastPageIdx
  else []
termination_by lastPageIdx - pageIdx
decreasing_by
  have := Nat.two_pow_pos (pageRegionOrder pageIdx lastPageIdx pageOrderMax)
  omega

/-- The loop of `page_free_region` is `page_free_block` on its blocks, one after another. -/
theorem pageFreeRegionLoop_eq_foldlM (s : PageState) (pageIdx lastPageIdx : Nat) :
    pageFreeRegionLoop s pageIdx lastPageIdx =
      (pageRegionBlocks pageIdx lastPageIdx).foldlM (fun s b => pageFreeBlock s b.1 b.2) s := by
  induction s, pageIdx using pageFreeRegionLoop.induct lastPageIdx with
  | case1 s pageIdx hlt ih =>
    rw [pageFreeRegionLoop, if_pos hlt, pageRegionBlocks, if_pos hlt, List.foldlM_cons]
    -- the first block, then the rest of the region from any state
    exact Option.bind_congr fun s₁ _ => ih s₁
  | case2 s pageIdx hge =>
    rw [pageFreeRegionLoop, if_neg hge, pageRegionBlocks, if_neg hge]
    rfl

/-- The blocks cover the pages of the region one after another, each once. -/
theorem pageRegionBlocks_pages (pageIdx lastPageIdx : Nat) :
    (pageRegionBlocks pageIdx lastPageIdx).flatMap (fun b => List.range' b.1 (2 ^ b.2)) =
      List.range' pageIdx (lastPageIdx - pageIdx) := by
  induction pageIdx using pageRegionBlocks.induct lastPageIdx with
  | case1 pageIdx hlt ih =>
    obtain ⟨-, -, hfit⟩ := pageRegionOrder_spec pageIdx lastPageIdx pageOrderMax hlt
    rw [pageRegionBlocks, if_pos hlt, List.flatMap_cons, ih, List.range'_append_1]
    congr 1
    dsimp only
    omega
  | case2 pageIdx hge =>
    rw [pageRegionBlocks, if_neg hge, Nat.sub_eq_zero_of_le (Nat.le_of_not_lt hge)]
    rfl

/-- Each block is aligned, inside the region from `pageIdx` on, of order at most
`PAGE_ORDER_MAX`, and the largest such block at its index. -/
theorem mem_pageRegionBlocks {pageIdx lastPageIdx idx o : Nat}
    (h : (idx, o) ∈ pageRegionBlocks pageIdx lastPageIdx) :
    pageIdx ≤ idx ∧ o ≤ pageOrderMax ∧ 2 ^ o ∣ idx ∧ idx + 2 ^ o ≤ lastPageIdx ∧
      ∀ o', o < o' → o' ≤ pageOrderMax → ¬ (2 ^ o' ∣ idx ∧ idx + 2 ^ o' ≤ lastPageIdx) := by
  induction pageIdx using pageRegionBlocks.induct lastPageIdx with
  | case1 pageIdx hlt ih =>
    rw [pageRegionBlocks, if_pos hlt, List.mem_cons] at h
    rcases h with h | h
    · -- the block the loop frees first
      simp only [Prod.mk.injEq] at h
      obtain ⟨rfl, rfl⟩ := h
      obtain ⟨hle, hal, hfit⟩ := pageRegionOrder_spec idx lastPageIdx pageOrderMax hlt
      exact ⟨le_rfl, hle, hal, hfit, fun o' ho' hmax =>
        pageRegionOrder_max idx lastPageIdx pageOrderMax o' ho' hmax⟩
    · obtain ⟨hge, hrest⟩ := ih h
      exact ⟨Nat.le_trans (Nat.le_add_right _ _) hge, hrest⟩
  | case2 pageIdx hge =>
    rw [pageRegionBlocks, if_neg hge] at h
    exact absurd h List.not_mem_nil

/-- `page_free_region(start, end)` frees the pages from `ceil(start / PAGE_SIZE)` to
`floor(end / PAGE_SIZE)` as a sequence of `page_free_block` calls whose blocks cover those
pages in order, each once; each block is aligned at its index, of order at most
`PAGE_ORDER_MAX`, and the largest such block that fits in what is left of the region. -/
theorem page_free_region_decomposes (s : PageState) (start stop : Nat) :
    pageFreeRegion s start stop =
        (pageRegionBlocks ((start + pageSize - 1) / pageSize) (stop / pageSize)).foldlM
          (fun s b => pageFreeBlock s b.1 b.2) s ∧
      (pageRegionBlocks ((start + pageSize - 1) / pageSize) (stop / pageSize)).flatMap
          (fun b => List.range' b.1 (2 ^ b.2)) =
        List.range' ((start + pageSize - 1) / pageSize)
          (stop / pageSize - (start + pageSize - 1) / pageSize) ∧
      ∀ b ∈ pageRegionBlocks ((start + pageSize - 1) / pageSize) (stop / pageSize),
        b.2 ≤ pageOrderMax ∧ 2 ^ b.2 ∣ b.1 ∧ b.1 + 2 ^ b.2 ≤ stop / pageSize ∧
          ∀ o, b.2 < o → o ≤ pageOrderMax → ¬ (2 ^ o ∣ b.1 ∧ b.1 + 2 ^ o ≤ stop / pageSize) := by
  refine ⟨pageFreeRegionLoop_eq_foldlM s _ _, pageRegionBlocks_pages _ _, ?_⟩
  rintro ⟨idx, o⟩ hb
  exact (mem_pageRegionBlocks hb).2

theorem pageEmpty_wf (L : MemLayout) : PageWF (pageEmpty L) where
  above := fun _ => rfl
  nodup := fun _ => List.nodup_nil
  aligned := fun hp => absurd hp List.not_mem_nil
  inRange := fun hp => absurd hp List.not_mem_nil
  apart := fun hp => absurd hp List.not_mem_nil
  bitmap := by
    intro o _ i
    simp [pageEmpty]
  coalesced := fun _ hp => absurd hp List.not_mem_nil

theorem pageEmpty_clear (L : MemLayout) (x k : Nat) : (pageEmpty L).Clear x k :=
  fun hq => absurd hq List.not_mem_nil

theorem pageEmpty_total (L : MemLayout) : pageFreeTotal (pageEmpty L) = 0 := by
  simp [pageFreeTotal, pageEmpty]

/-- Boot never panics, and leaves a well-formed, correctly counted allocator over
`PHYS_LIMIT / PAGE_SIZE` pages. -/
theorem pageBoot_spec (L : MemLayout) (hL : L.physEntryLimit ≤ L.physLimit) (bootEnd : Nat) :
    ∃ s₀ s₁, pageInitLow L bootEnd = some s₀ ∧ pageInitHigh L s₀ = some s₁ ∧ PageWF s₁ ∧
      s₁.freeCount = pageFreeTotal s₁ ∧ s₁.pageCount = L.physLimit / pageSize := by
  have hdiv : L.physEntryLimit / pageSize ≤ L.physLimit / pageSize := Nat.div_le_div_right hL
  obtain ⟨s₀, hlow, hwf₀, hcnt₀, hpc₀, hframe₀⟩ :=
    pageFreeRegionLoop_spec (L.physEntryLimit / pageSize) (pageEmpty L)
      ((bootEnd + pageSize - 1) / pageSize) (pageEmpty_wf L) (by rw [pageEmpty_total]; rfl)
      hdiv (fun _ => pageEmpty_clear L _ _)
  -- the high range lies after the low one, which is all that became free
  obtain ⟨s₁, hhigh, hwf₁, hcnt₁, hpc₁, -⟩ :=
    pageFreeRegionLoop_spec (L.physLimit / pageSize) s₀
      ((L.physEntryLimit + pageSize - 1) / pageSize) hwf₀ hcnt₀ (by rw [hpc₀]; exact le_rfl)
      (fun hlt => hframe₀ (by omega) (fun hlt₀ => Or.inr (by unfold pageSize at hlt₀ ⊢; omega))
        (pageEmpty_clear L _ _))
  exact ⟨s₀, s₁, hlow, hhigh, hwf₁, hcnt₁, by rw [hpc₁, hpc₀]; rfl⟩

/-! ## Runs -/

/-- Two blocks, as `(page, order)`, share no page. -/
def BlockApart (a b : Nat × Nat) : Prop := Apart a.1 (2 ^ a.2) b.1 (2 ^ b.2)

instance : Std.Symm BlockApart := ⟨fun _ _ h => Apart.symm h⟩

/-- The allocator invariant over runs: the representation invariant, the page count, and
the blocks held by clients — each aligned, in range, disjoint from the others and from
every free block. -/
structure PageInv (S : PageSys) : Prop where
  /-- (a), (b) among free blocks, (c) and (e). -/
  wf : PageWF S.state
  /-- (d) `page_free_count` is the number of pages on the free lists. -/
  count : S.state.freeCount = pageFreeTotal S.state
  held : ∀ {p o}, (p, o) ∈ S.allocated →
    o ≤ pageOrderMax ∧ 2 ^ o ∣ p ∧ p + 2 ^ o ≤ S.state.pageCount
  heldApart : S.allocated.Pairwise BlockApart
  /-- (b) between free and held blocks. -/
  heldClear : ∀ {p o}, (p, o) ∈ S.allocated → S.state.Clear p (2 ^ o)

theorem PageInv.nodup {S : PageSys} (hI : PageInv S) : S.allocated.Nodup :=
  hI.heldApart.imp fun hab heq => by
    subst heq
    exact not_apart_self (Nat.two_pow_pos _) hab

/-- One call of `page_alloc_block` or `page_free_block` keeps the invariant. -/
theorem PageInv.step {S S' : PageSys} (hI : PageInv S) (hst : PageStep S S') : PageInv S' := by
  cases hst with
  | alloc order hres =>
    have ha := pageAllocBlock_spec hI.wf hI.count hres
    refine ⟨ha.wf, ha.count, ?_, ?_, ?_⟩
    · intro p o hp
      rcases List.mem_cons.1 hp with heq | hp₀
      · cases heq
        exact ⟨ha.order_max, ha.aligned, by rw [ha.pageCount]; exact ha.inRange⟩
      · obtain ⟨h₁, h₂, h₃⟩ := hI.held hp₀
        exact ⟨h₁, h₂, by rw [ha.pageCount]; exact h₃⟩
    · -- the new block is apart from every held block, which was clear of the free lists
      exact List.Pairwise.cons (fun b hb => (ha.apart (hI.heldClear hb)).symm) hI.heldApart
    · intro p o hp
      rcases List.mem_cons.1 hp with heq | hp₀
      · cases heq
        exact ha.clear
      · exact ha.frame (hI.heldClear hp₀)
  | free page order hmem hres =>
    obtain ⟨ho, hal, hr⟩ := hI.held hmem
    obtain ⟨s', hrun, hf⟩ := pageFreeBlock_spec hI.wf hI.count ho hal hr (hI.heldClear hmem)
    rw [hrun, Option.some.injEq] at hres
    subst hres
    refine ⟨hf.wf, hf.count, ?_, hI.heldApart.sublist List.erase_sublist, ?_⟩
    · intro p o hp
      obtain ⟨h₁, h₂, h₃⟩ := hI.held (List.mem_of_mem_erase hp)
      exact ⟨h₁, h₂, by rw [hf.pageCount]; exact h₃⟩
    · -- another held block is apart from the freed one, so it stays clear
      intro p o hp
      obtain ⟨hne, hp₀⟩ := (hI.nodup.mem_erase_iff).1 hp
      exact hf.frame (Nat.two_pow_pos o) (hI.heldApart.forall hp₀ hmem hne)
        (hI.heldClear hp₀)

/-- The buddy allocator invariant over whole runs. In every state reached from
`page_init_low`/`page_init_high` by `page_alloc_block(order)` calls and
`page_free_block(page, order)` calls of blocks handed out with that order: (a) every free
block of order `o` is aligned to `2 ^ o` and inside `[0, page_count)`; (b) free blocks are
pairwise disjoint and disjoint from every handed-out block; (c) bit `i` of bitmap `o` is
set iff the block at `i * 2 ^ o` is on list `o`; (d) `page_free_count` is the number of
free pages; (e) no two buddies are free at the same order below `PAGE_ORDER_MAX`. And
`page_alloc_block(order)` then hands out an aligned block of `2 ^ order` pages inside
`[0, page_count)` that overlaps no block already handed out, and it does hand one out
whenever a free list of order `order` up to `PAGE_ORDER_MAX` is not empty. -/
theorem page_buddy_invariant (L : MemLayout) (hL : L.physEntryLimit ≤ L.physLimit)
    (bootEnd : Nat) {S : PageSys} (hS : PageReachable L bootEnd S) :
    PageInv S ∧ (∀ {order : Nat} {s' : PageState} {page : Nat},
      pageAllocBlock S.state order = some (s', page) →
        2 ^ order ∣ page ∧ page + 2 ^ order ≤ S.state.pageCount ∧
          ∀ b ∈ S.allocated, Apart page (2 ^ order) b.1 (2 ^ b.2)) ∧
      ∀ {order o : Nat}, order ≤ o → o ≤ pageOrderMax → S.state.freeList o ≠ [] →
        ∃ s' page, pageAllocBlock S.state order = some (s', page) := by
  have hI : PageInv S := by
    induction hS with
    | boot hlow hhigh =>
      obtain ⟨s₀, s₁, hlow', hhigh', hwf, hcnt, -⟩ := pageBoot_spec L hL bootEnd
      rw [hlow, Option.some.injEq] at hlow'
      subst hlow'
      rw [hhigh, Option.some.injEq] at hhigh'
      subst hhigh'
      exact ⟨hwf, hcnt, fun hp => absurd hp List.not_mem_nil, List.Pairwise.nil,
        fun hp => absurd hp List.not_mem_nil⟩
    | step _ hst ih => exact ih.step hst
  refine ⟨hI, fun hres => ?_, fun hord ho hne => pageAllocBlock_exists hI.wf hord ho hne⟩
  have ha := pageAllocBlock_spec hI.wf hI.count hres
  exact ⟨ha.aligned, ha.inRange, fun b hb => ha.apart (hI.heldClear hb) |>.symm⟩

/-- The ARM boot state is reachable and satisfies the invariant. -/
theorem page_buddy_invariant_arm : ∃ S, PageReachable armMemLayout 0 S ∧ PageInv S := by
  obtain ⟨s₀, s₁, hlow, hhigh, -⟩ := pageBoot_spec armMemLayout (by decide) 0
  exact ⟨_, .boot hlow hhigh,
    (page_buddy_invariant armMemLayout (by decide) 0 (.boot hlow hhigh)).1⟩

end Argentum.Mm
