import Argentum.Mm.VmRefCount

/-!
# Argentum.Mm.VmSafety

What the reference counting of `vm.c` promises in every reachable state, read off the run
invariant `VmInv` of `Argentum.Mm.VmRefCount`: the `ref_count` of an anonymous page is the
number of valid `VM_PAGE` entries that map it, so a page goes back to the page allocator
exactly when its last mapping goes. No anonymous page stays allocated unmapped, and no
mapped page is on the free list.
-/

namespace Argentum.Mm

variable {tables : Finset Nat} {S : VmState}

/-- What the reference counts of user memory promise in a state. -/
structure RefCounted (tables : Finset Nat) (S : VmState) : Prop where
  /-- Valid entries are in the page tables of the run, below `VIRT_KERNEL_BASE`. -/
  slots : ∀ t v, S.pte t v ≠ none → t ∈ tables ∧ v < userPages
  /-- An anonymous page's `ref_count` is the number of entries that map it, and it is
  mapped. -/
  counted : ∀ p, (S.pages p).debugTag = pageTagAnon →
    (S.pages p).refCount = mapCount tables S.pte p ∧ 0 < mapCount tables S.pte p
  /-- A mapped page is anonymous, and not free. -/
  mapped : ∀ p, 0 < mapCount tables S.pte p → (S.pages p).debugTag = pageTagAnon ∧ p ∉ S.free
  /-- A free page is untagged and unreferenced. -/
  free : ∀ p ∈ S.free, (S.pages p).debugTag = 0 ∧ (S.pages p).refCount = 0

/-- Between calls the allowances are gone: the invariant says what `RefCounted` asks. -/
theorem VmInv.refCounted (hI : VmInv tables S) : RefCounted tables S where
  slots := fun t v hne => by
    have hslot := (hI.shape.slots t v hne).1
    rw [userSlots, Finset.mem_product, Finset.mem_range] at hslot
    exact hslot
  counted := fun p htag => by
    have hc : (S.pages p).refCount = mapCount tables S.pte p := (hI.page p).counts htag
    refine ⟨hc, ?_⟩
    rcases (hI.page p).live htag with hpos | hfalse
    · rwa [← hc]
    · exact hfalse.elim
  mapped := fun p hpos =>
    have htag := (hI.page p).mapped hpos
    ⟨htag, (hI.page p).not_free htag⟩
  free := fun p hp => (hI.page p).clean hp

theorem vm_ref_count_exact {free : List Nat} (hfree : free.Nodup)
    (h : VmReachable tables free S) : RefCounted tables S :=
  (h.inv hfree).refCounted

/-- At boot, with pages 1 and 2 free and one page table. -/
theorem vm_ref_count_exact_boot : RefCounted {0} (vmBoot [1, 2]) :=
  vm_ref_count_exact (by decide) VmReachable.boot

end Argentum.Mm
