import Argentum.Mm.Page

/-!
# Argentum.Mm.PageInvariant

The representation invariant of the buddy allocator and its preservation by the two
stores every operation is built from, `PageState.push` (the body of `page_list_add`) and
`PageState.pull` (the body of `page_k_list_remove`).

`PageWF` is everything the lists and bitmaps promise about themselves: each free block is
aligned and inside `[0, page_count)`, the free blocks are pairwise disjoint, bit `i` of
bitmap `o` is set exactly when the block at `i * 2 ^ o` is on list `o`, and no two buddies
are free at the same order below `PAGE_ORDER_MAX`. The page count is a separate equation
against `pageFreeTotal`, the number of pages on the lists.

## Proof shape

Removal preserves every clause (`PageWF.pull`). Insertion needs the new block to be
aligned, in range, disjoint from every free block and without a free buddy
(`PageWF.push`); the loops of `page_alloc_block` and `page_free_block` establish exactly
these side conditions, in `Argentum.Mm.PageLoops`.
-/

namespace Argentum.Mm

open AlignedBlock

/-! ## Membership after a store -/

namespace PageState

theorem mem_push {s : PageState} {p o q o' : Nat} :
    q ∈ (s.push p o).freeList o' ↔ (o' = o ∧ q = p) ∨ q ∈ s.freeList o' := by
  rw [push_freeList]
  by_cases h : o' = o
  · subst h
    simp
  · simp [h]

theorem mem_pull {s : PageState} {p o q o' : Nat} (hnd : (s.freeList o).Nodup) :
    q ∈ (s.pull p o).freeList o' ↔ q ∈ s.freeList o' ∧ ¬ (o' = o ∧ q = p) := by
  rw [pull_freeList]
  by_cases h : o' = o
  · subst h
    rw [if_pos rfl, hnd.mem_erase_iff]
    simp [and_comm]
  · simp [h]

theorem mem_of_mem_pull {s : PageState} {p o q o' : Nat}
    (hq : q ∈ (s.pull p o).freeList o') : q ∈ s.freeList o' := by
  rw [pull_freeList] at hq
  split at hq
  · subst_vars
    exact List.mem_of_mem_erase hq
  · exact hq

/-- No free block meets the span `[x, x + k)`. -/
def Clear (s : PageState) (x k : Nat) : Prop :=
  ∀ {q o}, q ∈ s.freeList o → Apart x k q (2 ^ o)

end PageState

/-! ## The representation invariant -/

/-- The free lists and bitmaps describe a set of aligned, disjoint, coalesced blocks. -/
structure PageWF (s : PageState) : Prop where
  /-- Only orders `0 .. PAGE_ORDER_MAX` have lists. -/
  above : ∀ {o}, pageOrderMax < o → s.freeList o = []
  nodup : ∀ o, (s.freeList o).Nodup
  /-- (a) Each free block of order `o` starts at a multiple of `2 ^ o`, -/
  aligned : ∀ {p o}, p ∈ s.freeList o → 2 ^ o ∣ p
  /-- and lies inside `[0, page_count)`. -/
  inRange : ∀ {p o}, p ∈ s.freeList o → p + 2 ^ o ≤ s.pageCount
  /-- (b) Distinct free blocks are disjoint. -/
  apart : ∀ {p o q o'}, p ∈ s.freeList o → q ∈ s.freeList o' → (p, o) ≠ (q, o') →
    Apart p (2 ^ o) q (2 ^ o')
  /-- (c) Bit `i` of bitmap `o` is set iff the block at `i * 2 ^ o` is on list `o`. -/
  bitmap : ∀ {o}, o ≤ pageOrderMax → ∀ i,
    WordBitmap.test (s.bitmap o) i = true ↔ i * 2 ^ o ∈ s.freeList o
  /-- (e) No free block has a free buddy of the same order below `PAGE_ORDER_MAX`. -/
  coalesced : ∀ {p o}, o < pageOrderMax → p ∈ s.freeList o → pageBuddy p o ∉ s.freeList o

/-- (d) The pages on the free lists: `2 ^ o` for every block on list `o`. -/
def pageFreeTotal (s : PageState) : Nat :=
  ∑ o ∈ Finset.range (pageOrderMax + 1), (s.freeList o).length * 2 ^ o

variable {s : PageState} {p o : Nat}

theorem PageWF.order_le (h : PageWF s) (hp : p ∈ s.freeList o) : o ≤ pageOrderMax := by
  by_contra hlt
  rw [h.above (Nat.lt_of_not_le hlt)] at hp
  exact List.not_mem_nil hp

theorem PageState.not_mem_of_clear (hc : s.Clear p (2 ^ o)) : p ∉ s.freeList o :=
  fun hp => not_apart_self (Nat.two_pow_pos o) (hc hp)

/-- `page_list_contains` reads list membership off the bitmap. -/
theorem PageWF.contains_iff (h : PageWF s) (ho : o ≤ pageOrderMax) (hal : 2 ^ o ∣ p) :
    pageListContains s p o = true ↔ p ∈ s.freeList o := by
  rw [pageListContains, h.bitmap ho, Nat.div_mul_cancel hal]

/-- Taking a free block off its list keeps the invariant. -/
theorem PageWF.pull (h : PageWF s) (hp : p ∈ s.freeList o) : PageWF (s.pull p o) where
  above := by
    intro o' ho'
    rw [PageState.pull_freeList]
    split
    · subst_vars
      rw [h.above ho']
      rfl
    · exact h.above ho'
  nodup := by
    intro o'
    rw [PageState.pull_freeList]
    split
    · exact (h.nodup o).erase p
    · exact h.nodup o'
  aligned := fun hq => h.aligned (PageState.mem_of_mem_pull hq)
  inRange := fun hq => h.inRange (PageState.mem_of_mem_pull hq)
  apart := fun hq hq' hne =>
    h.apart (PageState.mem_of_mem_pull hq) (PageState.mem_of_mem_pull hq') hne
  bitmap := by
    intro o' ho' i
    rw [PageState.mem_pull (h.nodup o), PageState.pull_bitmap, ← h.bitmap ho']
    by_cases hoo : o' = o
    · subst hoo
      have hdiv : i * 2 ^ o' = p ↔ i = p / 2 ^ o' := by
        constructor
        · rintro rfl
          rw [Nat.mul_div_cancel _ (Nat.two_pow_pos o')]
        · rintro rfl
          exact Nat.div_mul_cancel (h.aligned hp)
      simp [WordBitmap.test_clear, hdiv, and_comm]
    · simp [hoo]
  coalesced := by
    intro q o' ho' hq hb
    exact h.coalesced ho' (PageState.mem_of_mem_pull hq) (PageState.mem_of_mem_pull hb)

/-- Putting a block on its list keeps the invariant, when it is aligned, in range,
disjoint from every free block and without a free buddy. -/
theorem PageWF.push (h : PageWF s) (ho : o ≤ pageOrderMax) (hal : 2 ^ o ∣ p)
    (hr : p + 2 ^ o ≤ s.pageCount) (hc : s.Clear p (2 ^ o))
    (hb : o < pageOrderMax → pageBuddy p o ∉ s.freeList o) : PageWF (s.push p o) where
  above := by
    intro o' ho'
    have hne : o' ≠ o := by omega
    rw [PageState.push_freeList, if_neg hne, h.above ho']
  nodup := by
    intro o'
    rw [PageState.push_freeList]
    split
    · subst_vars
      exact List.nodup_cons.2 ⟨PageState.not_mem_of_clear hc, h.nodup _⟩
    · exact h.nodup o'
  aligned := by
    intro q o' hq
    rcases PageState.mem_push.1 hq with ⟨rfl, rfl⟩ | hq
    · exact hal
    · exact h.aligned hq
  inRange := by
    intro q o' hq
    rcases PageState.mem_push.1 hq with ⟨rfl, rfl⟩ | hq
    · exact hr
    · exact h.inRange hq
  apart := by
    intro q o' q' o'' hq hq' hne
    rcases PageState.mem_push.1 hq with ⟨ho', hqp⟩ | hq₀ <;>
      rcases PageState.mem_push.1 hq' with ⟨ho'', hqp'⟩ | hq₀'
    · subst_vars
      exact absurd rfl hne
    · subst_vars
      exact hc hq₀'
    · subst_vars
      exact (hc hq₀).symm
    · exact h.apart hq₀ hq₀' hne
  bitmap := by
    intro o' ho' i
    rw [PageState.mem_push, PageState.push_bitmap, ← h.bitmap ho']
    by_cases hoo : o' = o
    · subst hoo
      have hdiv : i * 2 ^ o' = p ↔ i = p / 2 ^ o' := by
        constructor
        · rintro rfl
          rw [Nat.mul_div_cancel _ (Nat.two_pow_pos o')]
        · rintro rfl
          exact Nat.div_mul_cancel hal
      simp [WordBitmap.test_set, hdiv]
    · simp [hoo]
  coalesced := by
    intro q o' ho' hq hbq
    have hpos := Nat.two_pow_pos o
    rcases PageState.mem_push.1 hq with ⟨ho'', hqp⟩ | hq₀
    · -- the new block: its buddy is another block, and was not free
      subst_vars
      rcases PageState.mem_push.1 hbq with ⟨-, hself⟩ | hbq₀
      · unfold pageBuddy at hself
        rcases buddy_cases hal with ⟨-, hbd⟩ | ⟨-, hbd⟩ <;> omega
      · exact hb ho' hbq₀
    · -- an old block whose buddy became free would make the new block's buddy free
      rcases PageState.mem_push.1 hbq with ⟨ho'', hbp⟩ | hbq₀
      · subst ho''
        apply hb ho'
        unfold pageBuddy at hbp ⊢
        rw [← hbp, buddy_buddy]
        exact hq₀
      · exact h.coalesced ho' hq₀ hbq₀

/-! ## Counting free pages -/

theorem pageFreeTotal_eq_add (s : PageState) (ho : o ≤ pageOrderMax) :
    pageFreeTotal s = (s.freeList o).length * 2 ^ o +
      ∑ o' ∈ (Finset.range (pageOrderMax + 1)).erase o, (s.freeList o').length * 2 ^ o' := by
  rw [pageFreeTotal, ← Finset.add_sum_erase _ _ (Finset.mem_range.2 (Nat.lt_succ_of_le ho))]

theorem pageFreeTotal_push (s : PageState) (ho : o ≤ pageOrderMax) :
    pageFreeTotal (s.push p o) = pageFreeTotal s + 2 ^ o := by
  rw [pageFreeTotal_eq_add s ho, pageFreeTotal_eq_add _ ho, PageState.push_freeList, if_pos rfl,
    Finset.sum_congr rfl (fun o' ho' => by
      rw [PageState.push_freeList, if_neg (Finset.ne_of_mem_erase ho')])]
  simp only [List.length_cons, Nat.succ_mul]
  omega

theorem pageFreeTotal_pull (h : PageWF s) (hp : p ∈ s.freeList o) :
    pageFreeTotal (s.pull p o) + 2 ^ o = pageFreeTotal s := by
  have ho := h.order_le hp
  have hlen : ((s.freeList o).erase p).length + 1 = (s.freeList o).length := by
    rw [List.length_erase_of_mem hp]
    have := List.length_pos_of_mem hp
    omega
  rw [pageFreeTotal_eq_add s ho, pageFreeTotal_eq_add _ ho, PageState.pull_freeList, if_pos rfl,
    Finset.sum_congr rfl (fun o' ho' => by
      rw [PageState.pull_freeList, if_neg (Finset.ne_of_mem_erase ho')]), ← hlen,
    Nat.succ_mul]
  omega

end Argentum.Mm
