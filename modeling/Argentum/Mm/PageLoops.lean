import Argentum.Mm.PageInvariant

/-!
# Argentum.Mm.PageLoops

The loops of `page_alloc_block` and `page_free_block`, each proved once: from a
well-formed state, with one block moved off the lists, the loop returns (none of its
assertions fires) and leaves a well-formed state. `SplitsTo` and `MergesTo` record what
each loop guarantees; `AllocsTo` and `FreesTo` lift that to the whole calls.

## Proof shape

The split loop is structural on the order and the merge loop follows
`pageMerge.induct`. Both carry one invariant: the *in-flight* block — off its list and not
yet put back or handed out — is aligned, in range and clear of every free block. Each
iteration moves one block between the lists and the in-flight block, so each case is one
`PageWF.push` or `PageWF.pull` plus span arithmetic. The frame fields (`fresh`, `sub`,
`away`, `frame`) say which spans stay clear of free blocks; the run invariant uses them for
the blocks the clients hold.
-/

namespace Argentum.Mm

open AlignedBlock

variable {s : PageState} {p o : Nat}

theorem PageState.Clear.mono {x k y m : Nat} (h : s.Clear x k) (hx : x ≤ y)
    (hy : y + m ≤ x + k) : s.Clear y m :=
  fun hq => (h hq).mono_left hx hy

theorem PageWF.withFreeCount (h : PageWF s) (c : Nat) : PageWF { s with freeCount := c } :=
  ⟨h.above, h.nodup, h.aligned, h.inRange, h.apart, h.bitmap, h.coalesced⟩

@[simp] theorem pageFreeTotal_withFreeCount (s : PageState) (c : Nat) :
    pageFreeTotal { s with freeCount := c } = pageFreeTotal s := rfl

/-! ## The primitives under the invariant -/

/-- Both assertions of `page_list_add` hold for an aligned block that is not free. -/
theorem pageListAdd_eq (h : PageWF s) (ho : o ≤ pageOrderMax) (hal : 2 ^ o ∣ p)
    (hn : p ∉ s.freeList o) : pageListAdd s p o = some (s.push p o) := by
  have hcont : pageListContains s p o = false :=
    Bool.eq_false_iff.2 fun hc => hn ((h.contains_iff ho hal).1 hc)
  rw [pageListAdd, if_pos ⟨Nat.mod_eq_zero_of_dvd hal, hcont⟩]

/-- Both assertions of `page_k_list_remove` hold for a free block. -/
theorem pageKListRemove_eq (h : PageWF s) (hp : p ∈ s.freeList o) :
    pageKListRemove s p o = some (s.pull p o) := by
  have hal := h.aligned hp
  rw [pageKListRemove,
    if_pos ⟨Nat.mod_eq_zero_of_dvd hal, (h.contains_iff (h.order_le hp) hal).2 hp⟩]

theorem pageFindOrder_spec {order : Nat} (h : pageFindOrder s order = some o) :
    order ≤ o ∧ o ≤ pageOrderMax ∧ s.freeList o ≠ [] := by
  have hmem := List.mem_of_find?_eq_some h
  have hne := List.find?_some h
  rw [List.mem_range'_1] at hmem
  refine ⟨hmem.1, by omega, ?_⟩
  simpa using hne

/-! ## The split loop -/

/-- What the split loop of `page_alloc_block` guarantees, entered with the block
`(page, o)` off the lists: a well-formed state and an order-`order` block inside
`(page, o)` that no free block meets; every other page of `(page, o)` is back on a list. -/
structure SplitsTo (s : PageState) (page o order : Nat) (s' : PageState) (page' : Nat) :
    Prop where
  wf : PageWF s'
  pageCount : s'.pageCount = s.pageCount
  freeCount : s'.freeCount = s.freeCount
  aligned : 2 ^ order ∣ page'
  lower : page ≤ page'
  upper : page' + 2 ^ order ≤ page + 2 ^ o
  clear : s'.Clear page' (2 ^ order)
  total : pageFreeTotal s' + 2 ^ order = pageFreeTotal s + 2 ^ o
  fresh : ∀ {q o'}, q ∈ s'.freeList o' →
    q ∈ s.freeList o' ∨ (page ≤ q ∧ q + 2 ^ o' ≤ page + 2 ^ o)

theorem SplitsTo.refl (h : PageWF s) (hal : 2 ^ o ∣ p) (hc : s.Clear p (2 ^ o)) :
    SplitsTo s p o o s p :=
  ⟨h, rfl, rfl, hal, le_rfl, le_rfl, hc, rfl, fun hq => Or.inl hq⟩

theorem pageSplit_spec {order : Nat} (o : Nat) {s : PageState} {page : Nat} (h : PageWF s)
    (hord : order ≤ o) (ho : o ≤ pageOrderMax) (hal : 2 ^ o ∣ page)
    (hr : page + 2 ^ o ≤ s.pageCount) (hc : s.Clear page (2 ^ o)) :
    ∃ s' page', pageSplit s order page o = some (s', page') ∧ SplitsTo s page o order s' page' := by
  induction o generalizing s page with
  | zero =>
    obtain rfl : order = 0 := by omega
    exact ⟨s, page, rfl, SplitsTo.refl h hal hc⟩
  | succ o ih =>
    by_cases hlt : order < o + 1
    · have hpow := Nat.two_pow_succ o
      have hpos := Nat.two_pow_pos o
      have hal₀ : 2 ^ o ∣ page := Nat.dvd_trans (Nat.pow_dvd_pow 2 (Nat.le_succ o)) hal
      have hlow : s.Clear page (2 ^ o) := hc.mono le_rfl (by omega)
      -- the lower half's buddy is the upper half, which is in flight, not free
      have hbud : o < pageOrderMax → pageBuddy page o ∉ s.freeList o := by
        intro _ hb
        have hap := hc hb
        rw [pageBuddy, buddy_of_dvd_succ hal] at hap
        unfold Apart at hap
        omega
      have hwf := h.push (by omega) hal₀ (by omega) hlow hbud
      -- the upper half meets neither the lower half just put back nor an older free block
      have hup : (s.push page o).Clear (page + 2 ^ o) (2 ^ o) := by
        intro q o' hq
        rcases PageState.mem_push.1 hq with ⟨rfl, rfl⟩ | hq₀
        · exact Or.inr le_rfl
        · exact (hc hq₀).mono_left (by omega) (by omega)
      obtain ⟨s', page', hrun, hs⟩ := ih hwf (by omega) (by omega)
        (Nat.dvd_add hal₀ (Nat.dvd_refl _)) (by simp only [PageState.push_pageCount]; omega) hup
      refine ⟨s', page', ?_, ?_⟩
      · simp [pageSplit, hlt, pageListAdd_eq h (by omega) hal₀ (PageState.not_mem_of_clear hlow),
          hrun]
      · have hlo := hs.lower
        have hhi := hs.upper
        have htot := hs.total
        rw [pageFreeTotal_push s (by omega)] at htot
        refine ⟨hs.wf, by simp [hs.pageCount], by simp [hs.freeCount], hs.aligned, by omega,
          by omega, hs.clear, by omega, ?_⟩
        intro q o' hq
        rcases hs.fresh hq with hq₀ | ⟨hq₁, hq₂⟩
        · rcases PageState.mem_push.1 hq₀ with ⟨rfl, rfl⟩ | hq₃
          · exact Or.inr ⟨le_rfl, by omega⟩
          · exact Or.inl hq₃
        · exact Or.inr ⟨by omega, by omega⟩
    · obtain rfl : order = o + 1 := by omega
      exact ⟨s, page, by simp [pageSplit], SplitsTo.refl h hal hc⟩

/-! ## The merge loop -/

/-- What the merge loop of `page_free_block` guarantees, entered with the block
`(page, o)` off the lists: a well-formed state whose free blocks were all free before,
and an aligned block `(page', o')` clear of them, whose buddy is not free. Every span
clear of the old free blocks and of `(page, o)` is clear of `(page', o')` (`away`): the
merged block is made of `(page, o)` and of free buddies. -/
structure MergesTo (s : PageState) (page o : Nat) (s' : PageState) (page' o' : Nat) :
    Prop where
  wf : PageWF s'
  pageCount : s'.pageCount = s.pageCount
  freeCount : s'.freeCount = s.freeCount
  order_le : o ≤ o'
  order_max : o' ≤ pageOrderMax
  aligned : 2 ^ o' ∣ page'
  inRange : page' + 2 ^ o' ≤ s.pageCount
  clear : s'.Clear page' (2 ^ o')
  stop : o' < pageOrderMax → pageBuddy page' o' ∉ s'.freeList o'
  total : pageFreeTotal s' + 2 ^ o' = pageFreeTotal s + 2 ^ o
  sub : ∀ {q o''}, q ∈ s'.freeList o'' → q ∈ s.freeList o''
  away : ∀ {x k}, 0 < k → Apart x k page (2 ^ o) → s.Clear x k → Apart x k page' (2 ^ o')

theorem MergesTo.refl (h : PageWF s) (ho : o ≤ pageOrderMax) (hal : 2 ^ o ∣ p)
    (hr : p + 2 ^ o ≤ s.pageCount) (hc : s.Clear p (2 ^ o))
    (hstop : o < pageOrderMax → pageBuddy p o ∉ s.freeList o) : MergesTo s p o s p o :=
  ⟨h, rfl, rfl, le_rfl, ho, hal, hr, hc, hstop, rfl, fun hq => hq, fun _ hx _ => hx⟩

theorem pageMerge_spec (s : PageState) (page o : Nat) (h : PageWF s) (ho : o ≤ pageOrderMax)
    (hal : 2 ^ o ∣ page) (hr : page + 2 ^ o ≤ s.pageCount) (hc : s.Clear page (2 ^ o)) :
    ∃ s' page' o', pageMerge s page o = some (s', page', o') ∧ MergesTo s page o s' page' o' := by
  induction s, page, o using pageMerge.induct with
  | case1 s page o hlt hcont ih =>
    -- the buddy is free: take it off its list and continue with the parent block
    have hpb : pageBuddy page o = buddy page o := rfl
    have hbal : 2 ^ o ∣ buddy page o := dvd_buddy hal
    have hbmem : buddy page o ∈ s.freeList o := (h.contains_iff ho hbal).1 hcont
    -- `pageMerge.induct` states the next start as a dependent `if`
    have hmin : (if _h : pageBuddy page o < page then pageBuddy page o else page) =
        min page (buddy page o) := by
      rw [hpb]
      split <;> omega
    have hpow := Nat.two_pow_succ o
    have hr₁ : min page (buddy page o) + 2 ^ (o + 1) ≤ s.pageCount := by
      have := h.inRange hbmem
      rcases buddy_cases hal with ⟨-, hb⟩ | ⟨-, hb⟩ <;> omega
    have hc₁ : (s.pull (buddy page o) o).Clear (min page (buddy page o)) (2 ^ (o + 1)) := by
      intro q o' hq
      obtain ⟨hq₀, hne⟩ := (PageState.mem_pull (h.nodup o)).1 hq
      have hne' : (buddy page o, o) ≠ (q, o') :=
        fun heq => hne ⟨by cases heq; rfl, by cases heq; rfl⟩
      exact (Apart.merge_buddy (Nat.two_pow_pos o') hal (hc hq₀).symm
        (h.apart hbmem hq₀ hne').symm).symm
    obtain ⟨s', page', o', hrun, hm⟩ := ih (s.pull (buddy page o) o) (h.pull hbmem) (by omega)
      (by rw [hmin]; exact dvd_min_buddy hal) (by rw [hmin]; simpa using hr₁)
      (by rw [hmin]; exact hc₁)
    refine ⟨s', page', o', ?_, ?_⟩
    · rw [pageMerge, if_pos hlt, if_pos hcont, hpb, pageKListRemove_eq h hbmem]
      exact hrun
    · have htot := pageFreeTotal_pull h hbmem
      have hle := hm.order_le
      have hmt := hm.total
      refine ⟨hm.wf, by simp [hm.pageCount], by simp [hm.freeCount], by omega, hm.order_max,
        hm.aligned, by simpa using hm.inRange, hm.clear, hm.stop, by omega,
        fun hq => PageState.mem_of_mem_pull (hm.sub hq), ?_⟩
      intro x k hk hx hcx
      refine hm.away hk (by rw [hmin]; exact Apart.merge_buddy hk hal hx (hcx hbmem)) ?_
      exact fun hq => hcx (PageState.mem_of_mem_pull hq)
  | case2 s page o hlt hcont =>
    -- the buddy is not free: stop here
    refine ⟨s, page, o, by rw [pageMerge, if_pos hlt, if_neg hcont],
      MergesTo.refl h ho hal hr hc ?_⟩
    intro _ hb
    exact hcont ((h.contains_iff ho (dvd_buddy hal)).2 hb)
  | case3 s page o hge =>
    exact ⟨s, page, o, by rw [pageMerge, if_neg hge],
      MergesTo.refl h ho hal hr hc (fun hlt => absurd hlt hge)⟩

/-! ## The two calls -/

/-- What `page_free_block` guarantees: a well-formed, correctly counted state in which
every span that was clear of free blocks and of the freed block stays clear. -/
structure FreesTo (s : PageState) (page order : Nat) (s' : PageState) : Prop where
  wf : PageWF s'
  count : s'.freeCount = pageFreeTotal s'
  pageCount : s'.pageCount = s.pageCount
  frame : ∀ {x k}, 0 < k → Apart x k page (2 ^ order) → s.Clear x k → s'.Clear x k

/-- `page_free_block` of an aligned, in-range block clear of every free block returns
(no assertion fires) and keeps the invariant. -/
theorem pageFreeBlock_spec (h : PageWF s) (hcount : s.freeCount = pageFreeTotal s)
    {page order : Nat} (ho : order ≤ pageOrderMax) (hal : 2 ^ order ∣ page)
    (hr : page + 2 ^ order ≤ s.pageCount) (hc : s.Clear page (2 ^ order)) :
    ∃ s', pageFreeBlock s page order = some s' ∧ FreesTo s page order s' := by
  obtain ⟨s₁, page₁, o₁, hrun, hm⟩ := pageMerge_spec s page order h ho hal hr hc
  have hadd := pageListAdd_eq hm.wf hm.order_max hm.aligned (PageState.not_mem_of_clear hm.clear)
  have hwf := hm.wf.push hm.order_max hm.aligned (by simpa [hm.pageCount] using hm.inRange)
    hm.clear hm.stop
  refine ⟨{ s₁.push page₁ o₁ with freeCount := s₁.freeCount + 2 ^ order },
    by simp [pageFreeBlock, hrun, hadd], hwf.withFreeCount _, ?_, by simp [hm.pageCount], ?_⟩
  · have hmt := hm.total
    have hpush : pageFreeTotal (s₁.push page₁ o₁) = pageFreeTotal s₁ + 2 ^ o₁ :=
      pageFreeTotal_push s₁ hm.order_max
    show s₁.freeCount + 2 ^ order = pageFreeTotal (s₁.push page₁ o₁)
    rw [hm.freeCount]
    omega
  · intro x k hk hx hcx q o' hq
    have hq' : q ∈ (s₁.push page₁ o₁).freeList o' := hq
    rcases PageState.mem_push.1 hq' with ⟨rfl, rfl⟩ | hq₀
    · exact hm.away hk hx hcx
    · exact hcx (hm.sub hq₀)

/-- A block taken off its free list meets no block left on the lists. -/
theorem PageWF.clear_pull (h : PageWF s) (hp : p ∈ s.freeList o) : (s.pull p o).Clear p (2 ^ o) :=
  fun hq => h.apart hp (PageState.mem_of_mem_pull hq) fun heq =>
    (PageState.mem_pull (h.nodup o)).1 hq |>.2 ⟨by cases heq; rfl, by cases heq; rfl⟩

/-- What `page_alloc_block(order)` guarantees when it returns `page`: a well-formed,
correctly counted state, and an aligned order-`order` block inside `[0, page_count)`
that no free block meets and that is apart from every span that was clear of free
blocks — in particular from every block a client already holds. -/
structure AllocsTo (s : PageState) (order : Nat) (s' : PageState) (page : Nat) : Prop where
  wf : PageWF s'
  count : s'.freeCount = pageFreeTotal s'
  pageCount : s'.pageCount = s.pageCount
  order_max : order ≤ pageOrderMax
  aligned : 2 ^ order ∣ page
  inRange : page + 2 ^ order ≤ s.pageCount
  clear : s'.Clear page (2 ^ order)
  apart : ∀ {x k}, s.Clear x k → Apart x k page (2 ^ order)
  frame : ∀ {x k}, s.Clear x k → s'.Clear x k

theorem pageAllocBlock_spec (h : PageWF s) (hcount : s.freeCount = pageFreeTotal s)
    {order : Nat} {s' : PageState} {page : Nat}
    (hres : pageAllocBlock s order = some (s', page)) : AllocsTo s order s' page := by
  simp only [pageAllocBlock, Option.bind_eq_bind, Option.bind_eq_some_iff] at hres
  obtain ⟨o, hfind, page₀, hhead, s₁, hrem, ⟨s₂, page₂⟩, hsplit, hfin⟩ := hres
  obtain ⟨hord, ho, -⟩ := pageFindOrder_spec hfind
  have hmem : page₀ ∈ s.freeList o := List.mem_of_mem_head? hhead
  rw [pageKListRemove_eq h hmem, Option.some.injEq] at hrem
  subst hrem
  have hwf₁ := (h.pull hmem).withFreeCount (s.freeCount - 2 ^ order)
  obtain ⟨s₃, page₃, hrun, hs⟩ := pageSplit_spec o hwf₁ hord ho
    (h.aligned hmem) (by simpa using h.inRange hmem) (h.clear_pull hmem)
  have hsame : some (s₃, page₃) = some (s₂, page₂) := hrun.symm.trans hsplit
  rw [Option.some.injEq, Prod.mk.injEq] at hsame
  obtain ⟨hs₂, hp₂⟩ := hsame
  subst hs₂ hp₂
  split at hfin
  · exact absurd hfin (by simp)
  · rw [Option.some.injEq, Prod.mk.injEq] at hfin
    obtain ⟨hs', hp'⟩ := hfin
    subst hs' hp'
    have hpull := pageFreeTotal_pull h hmem
    have htot := hs.total
    have hlo := hs.lower
    have hhi := hs.upper
    have hr := h.inRange hmem
    have hpos := Nat.two_pow_pos order
    have hle : 2 ^ order ≤ 2 ^ o := Nat.pow_le_pow_right (by omega) hord
    refine ⟨hs.wf, ?_, by simp [hs.pageCount], by omega, hs.aligned, by omega, hs.clear, ?_, ?_⟩
    · -- the split put back `2 ^ o - 2 ^ order` of the `2 ^ o` pages taken off the lists
      rw [hs.freeCount]
      show s.freeCount - 2 ^ order = pageFreeTotal s₃
      rw [pageFreeTotal_withFreeCount (s.pull page₀ o)] at htot
      omega
    · intro x k hx
      exact (hx hmem).mono hlo (by omega)
    · intro x k hx q o' hq
      rcases hs.fresh hq with hq₀ | ⟨hq₁, hq₂⟩
      · exact hx (PageState.mem_of_mem_pull hq₀)
      · exact (hx hmem).mono hq₁ (by omega)

/-- `page_alloc_block(order)` hands out a block whenever a free list of order `order` or more,
up to `PAGE_ORDER_MAX`, is not empty: the search stops at a nonempty list, and no assertion of
the removal, the split or the final check fails. -/
theorem pageAllocBlock_exists (h : PageWF s) {order o : Nat} (hord : order ≤ o)
    (ho : o ≤ pageOrderMax) (hne : s.freeList o ≠ []) :
    ∃ s' page, pageAllocBlock s order = some (s', page) := by
  obtain ⟨o', hfind⟩ : ∃ o', pageFindOrder s order = some o' := by
    apply Option.isSome_iff_exists.1
    unfold pageFindOrder
    rw [List.find?_isSome]
    exact ⟨o, List.mem_range'_1.2 ⟨hord, by omega⟩, by simpa using hne⟩
  obtain ⟨hord', ho', hne'⟩ := pageFindOrder_spec hfind
  obtain ⟨page₀, rest, hcons⟩ := List.exists_cons_of_ne_nil hne'
  have hmem : page₀ ∈ s.freeList o' := by
    rw [hcons]
    exact List.mem_cons_self
  have hwf₁ := (h.pull hmem).withFreeCount (s.freeCount - 2 ^ order)
  obtain ⟨s₃, page₃, hrun, hs⟩ := pageSplit_spec o' hwf₁ hord' ho'
    (h.aligned hmem) (by simpa using h.inRange hmem) (h.clear_pull hmem)
  -- the block the split ends with is on no free list
  have hfree : pageListContains s₃ page₃ order = false :=
    Bool.eq_false_iff.2 fun hc => PageState.not_mem_of_clear hs.clear
      ((hs.wf.contains_iff (by omega) hs.aligned).1 hc)
  rw [PageState.pull_pageCount] at hrun
  refine ⟨s₃, page₃, ?_⟩
  simp [pageAllocBlock, hfind, hcons, pageKListRemove_eq h hmem, hrun, hfree]

end Argentum.Mm
