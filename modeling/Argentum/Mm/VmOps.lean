import Argentum.Mm.Vm

/-!
# Argentum.Mm.VmOps

One inversion lemma per primitive of `kernel/mm/vm.c`: what a call that returns has checked
and the state it has built, in terms of the field updates `VmState.setPte` and
`VmState.setRefCount`. The invariants of `Argentum.Mm.VmRefCount` read the operations through
these lemmas only.
-/

namespace Argentum.Mm

variable {S S' : VmState} {pgtab va page tag : Nat}

/-! ## Field updates -/

@[simp] theorem setPte_pte (S : VmState) (t v : Nat) (e : Option Pte) :
    (S.setPte t v e).pte = Function.update S.pte t (Function.update (S.pte t) v e) := rfl

@[simp] theorem setPte_pages (S : VmState) (t v : Nat) (e : Option Pte) :
    (S.setPte t v e).pages = S.pages := rfl

@[simp] theorem setPte_free (S : VmState) (t v : Nat) (e : Option Pte) :
    (S.setPte t v e).free = S.free := rfl

@[simp] theorem setPte_mem (S : VmState) (t v : Nat) (e : Option Pte) :
    (S.setPte t v e).mem = S.mem := rfl

@[simp] theorem setPte_l1 (S : VmState) (t v : Nat) (e : Option Pte) :
    (S.setPte t v e).l1 = S.l1 := rfl

@[simp] theorem setRefCount_pte (S : VmState) (p n : Nat) : (S.setRefCount p n).pte = S.pte :=
  rfl

@[simp] theorem setRefCount_free (S : VmState) (p n : Nat) :
    (S.setRefCount p n).free = S.free := rfl

@[simp] theorem setRefCount_mem (S : VmState) (p n : Nat) : (S.setRefCount p n).mem = S.mem :=
  rfl

@[simp] theorem setRefCount_l1 (S : VmState) (p n : Nat) : (S.setRefCount p n).l1 = S.l1 := rfl

@[simp] theorem setRefCount_pages (S : VmState) (p n : Nat) :
    (S.setRefCount p n).pages = Function.update S.pages p { S.pages p with refCount := n } := rfl

@[simp] theorem setRefCount_debugTag (S : VmState) (p n q : Nat) :
    ((S.setRefCount p n).pages q).debugTag = (S.pages q).debugTag := by
  by_cases hq : q = p
  · subst hq
    simp
  · simp [Function.update_of_ne hq]

theorem setRefCount_pages_of_ne (S : VmState) {p q : Nat} (n : Nat) (hq : q ≠ p) :
    (S.setRefCount p n).pages q = S.pages q := by
  simp [Function.update_of_ne hq]

@[simp] theorem setRefCount_refCount_self (S : VmState) (p n : Nat) :
    ((S.setRefCount p n).pages p).refCount = n := by
  simp

/-- The first-level entries `i` and `i + 1` of `pgtab` filled in, as `arch_vm_lookup` does. -/
theorem fillL1_apply (f : Nat → Nat → Bool) (pgtab i t j : Nat) :
    Function.update f pgtab (Function.update (Function.update (f pgtab) i true) (i + 1) true) t j =
      (f t j || (t == pgtab && (j == i || j == i + 1))) := by
  by_cases ht : t = pgtab
  · subst ht
    simp only [Function.update_self, Function.update_apply, beq_self_eq_true, Bool.true_and]
    by_cases hj : j = i + 1
    · simp [hj]
    · by_cases hj' : j = i
      · simp [hj']
      · simp [hj, hj']
  · simp [ht]

/-! ## The page allocator -/

theorem pageAllocBlockTag_zero (pages : Nat → PageDesc) (page tag : Nat) :
    pageAllocBlockTag pages page 0 tag = if (pages page).debugTag = 0 then
      some (Function.update pages page { pages page with debugTag := tag }) else none := by
  have hfun : (fun q => if page ≤ q ∧ q < page + 2 ^ 0 then { pages q with debugTag := tag }
      else pages q) = Function.update pages page { pages page with debugTag := tag } := by
    funext q
    by_cases hq : q = page
    · subst hq
      simp
    · rw [Function.update_of_ne hq, if_neg (by omega)]
  unfold pageAllocBlockTag
  rw [hfun]
  simp

/-- `page_alloc_one` took the head of the free list, an unreferenced untagged page, and
tagged and zeroed it. -/
theorem pageAllocOne_inv (h : pageAllocOne S tag = some (S', page)) :
    ∃ rest, S.free = page :: rest ∧ (S.pages page).refCount = 0 ∧
      (S.pages page).debugTag = 0 ∧
      S' = { S with
        free := rest
        pages := Function.update S.pages page { S.pages page with debugTag := tag }
        mem := Function.update S.mem page fun _ => 0 } := by
  unfold pageAllocOne at h
  split at h
  · contradiction
  · rename_i page' rest hfree
    split at h
    · contradiction
    · rename_i href
      rw [pageAllocBlockTag_zero] at h
      by_cases htag : (S.pages page').debugTag = 0
      · simp only [htag, if_true, Option.some.injEq, Prod.mk.injEq] at h
        obtain ⟨rfl, rfl⟩ := h
        exact ⟨rest, hfree, not_not.1 href, htag, rfl⟩
      · simp [htag] at h

/-- `page_free_one` put an unreferenced page back, untagged. -/
theorem pageFreeOne_inv (h : pageFreeOne S page = some S') :
    (S.pages page).refCount = 0 ∧
      S' = { S with
        free := page :: S.free
        pages := Function.update S.pages page { S.pages page with debugTag := 0 } } := by
  unfold pageFreeOne at h
  split at h
  · contradiction
  · rename_i href
    exact ⟨not_not.1 href, (Option.some.inj h).symm⟩

/-- Dropping a reference either leaves others, or frees the page with the last one. -/
theorem pageDropRef_inv (h : pageDropRef S page = some S') :
    ((S.pages page).refCount - 1 ≠ 0 ∧ S' = S.setRefCount page ((S.pages page).refCount - 1)) ∨
      ((S.pages page).refCount - 1 = 0 ∧
        S' = { S.setRefCount page 0 with
          free := page :: S.free
          pages := Function.update S.pages page
            { S.pages page with refCount := 0, debugTag := 0 } }) := by
  unfold pageDropRef at h
  dsimp only at h
  split at h
  · rename_i hz
    right
    obtain ⟨-, rfl⟩ := pageFreeOne_inv h
    refine ⟨hz, ?_⟩
    rw [hz]
    simp
  · rename_i hz
    exact Or.inl ⟨hz, (Option.some.inj h).symm⟩

/-! ## Page tables -/

theorem pte_of_pageEntry {e : Pte} (h : S.pageEntry pgtab va = some e) :
    S.pte pgtab (va / pageSize) = some e := by
  unfold VmState.pageEntry at h
  split at h
  · rename_i e' he'
    split at h
    · cases h
      exact he'
    · contradiction
  · contradiction

@[simp] theorem pageEntry_setPte_none (S : VmState) (pgtab va : Nat) :
    (S.setPte pgtab (va / pageSize) none).pageEntry pgtab va = none := by
  simp [VmState.pageEntry]

@[simp] theorem pageEntry_setPte_page (S : VmState) (pgtab va page : Nat) (flags : VmFlags) :
    (S.setPte pgtab (va / pageSize) (some ⟨page, { flags with page := true }⟩)).pageEntry pgtab va =
      some ⟨page, { flags with page := true }⟩ := by
  simp [VmState.pageEntry]

/-- `arch_vm_lookup` on a user table: an address below the kernel, and either the
second-level table was there, or it was not and none was allocated, or one was. -/
theorem archVmLookup_inv {alloc b : Bool} (h : archVmLookup S pgtab va alloc = some (S', b)) :
    va < virtKernelBase ∧
      ((S.l1 pgtab (l1Idx va) = true ∧ b = true ∧ S' = S) ∨
        (S.l1 pgtab (l1Idx va) = false ∧ alloc = false ∧ b = false ∧ S' = S) ∨
        (S.l1 pgtab (l1Idx va) = false ∧ alloc = true ∧ b = true ∧
          ∃ S₁ page, pageAllocOne S pageTagPgtab = some (S₁, page) ∧
            S' = { S₁.setRefCount page ((S₁.pages page).refCount + 1) with
              l1 := Function.update S₁.l1 pgtab
                (Function.update (Function.update (S₁.l1 pgtab) (l1Idx va / 2 * 2) true)
                  (l1Idx va / 2 * 2 + 1) true) })) := by
  unfold archVmLookup at h
  split at h
  · contradiction
  · rename_i hva
    refine ⟨Nat.lt_of_not_le hva, ?_⟩
    split at h
    · rename_i hl1
      simp only [Option.some.injEq, Prod.mk.injEq] at h
      obtain ⟨rfl, rfl⟩ := h
      exact Or.inl ⟨hl1, rfl, rfl⟩
    · rename_i hl1
      rw [Bool.not_eq_true] at hl1
      split at h
      · rename_i halloc
        simp only [Option.some.injEq, Prod.mk.injEq] at h
        obtain ⟨rfl, rfl⟩ := h
        exact Or.inr (Or.inl ⟨hl1, by simpa using halloc, rfl, rfl⟩)
      · rename_i halloc
        split at h
        · contradiction
        · rename_i S₁ page hpage
          simp only [Option.some.injEq, Prod.mk.injEq] at h
          obtain ⟨rfl, rfl⟩ := h
          exact Or.inr (Or.inr ⟨hl1, by simpa using halloc, rfl, S₁, page, hpage, rfl⟩)

/-- `vm_page_lookup` found a valid `VM_PAGE` entry of an anonymous page, or found none. -/
theorem vmPageLookup_inv {res : Option (Nat × VmFlags)}
    (h : vmPageLookup S pgtab va = some res) :
    va < virtKernelBase ∧
      ((res = none ∧ (S.l1 pgtab (l1Idx va) = false ∨ S.pageEntry pgtab va = none)) ∨
        ∃ e, S.l1 pgtab (l1Idx va) = true ∧ S.pageEntry pgtab va = some e ∧
          pageAssert S.pages e.addr 0 pageTagAnon = true ∧ res = some (e.addr, e.flags)) := by
  unfold vmPageLookup at h
  split at h
  · contradiction
  · rename_i S₁ hlook
    obtain ⟨hva, hcases⟩ := archVmLookup_inv hlook
    refine ⟨hva, Or.inl ⟨(Option.some.inj h).symm, Or.inl ?_⟩⟩
    rcases hcases with ⟨-, h', -⟩ | ⟨hl1, -⟩ | ⟨-, h', -⟩ <;> simp_all
  · rename_i S₁ hlook
    obtain ⟨hva, hcases⟩ := archVmLookup_inv hlook
    have hl1 : S.l1 pgtab (l1Idx va) = true := by
      rcases hcases with ⟨hl1, -⟩ | ⟨-, -, h', -⟩ | ⟨-, h', -⟩ <;> simp_all
    refine ⟨hva, ?_⟩
    split at h
    · rename_i hnone
      exact Or.inl ⟨(Option.some.inj h).symm, Or.inr hnone⟩
    · rename_i e he
      split at h
      · rename_i hassert
        exact Or.inr ⟨e, hl1, he, hassert, (Option.some.inj h).symm⟩
      · contradiction

/-- `vm_page_remove` found nothing to remove, or dropped the reference of the anonymous page
mapped at `va` and cleared the entry. -/
theorem vmPageRemove_inv (h : vmPageRemove S pgtab va = some S') :
    va < virtKernelBase ∧
      (((S.l1 pgtab (l1Idx va) = false ∨ S.pageEntry pgtab va = none) ∧ S' = S) ∨
        ∃ e S₂, S.l1 pgtab (l1Idx va) = true ∧ S.pageEntry pgtab va = some e ∧
          pageAssert S.pages e.addr 0 pageTagAnon = true ∧ pageDropRef S e.addr = some S₂ ∧
          S' = S₂.setPte pgtab (va / pageSize) none) := by
  unfold vmPageRemove at h
  split at h
  · contradiction
  · rename_i S₁ hlook
    obtain ⟨hva, hcases⟩ := archVmLookup_inv hlook
    refine ⟨hva, Or.inl ⟨Or.inl ?_, (Option.some.inj h).symm⟩⟩
    rcases hcases with ⟨-, h', -⟩ | ⟨hl1, -⟩ | ⟨-, h', -⟩ <;> simp_all
  · rename_i S₁ hlook
    obtain ⟨hva, hcases⟩ := archVmLookup_inv hlook
    have hl1 : S.l1 pgtab (l1Idx va) = true := by
      rcases hcases with ⟨hl1, -⟩ | ⟨-, -, h', -⟩ | ⟨-, h', -⟩ <;> simp_all
    refine ⟨hva, ?_⟩
    split at h
    · rename_i hnone
      exact Or.inl ⟨Or.inr hnone, (Option.some.inj h).symm⟩
    · rename_i e he
      split at h
      · contradiction
      · rename_i hassert
        obtain ⟨S₂, hdrop, rfl⟩ := Option.map_eq_some_iff.1 h
        exact Or.inr ⟨e, S₂, hl1, he, by simpa using hassert, hdrop, rfl⟩

/-- `vm_page_insert` always succeeds when it returns: the page allocator panics rather than
fail the table allocation. It took a reference, removed the old mapping and set the entry. -/
theorem vmPageInsert_inv {flags : VmFlags} {r : Int}
    (h : vmPageInsert S pgtab page va flags = some (S', r)) :
    r = 0 ∧ ∃ S₁ S₃, archVmLookup S pgtab va true = some (S₁, true) ∧
      vmPageRemove (S₁.setRefCount page ((S₁.pages page).refCount + 1)) pgtab va = some S₃ ∧
      S' = S₃.setPte pgtab (va / pageSize) (some ⟨page, { flags with page := true }⟩) := by
  unfold vmPageInsert at h
  split at h
  · contradiction
  · rename_i S₁ hlook
    obtain ⟨-, hcases⟩ := archVmLookup_inv hlook
    exfalso
    rcases hcases with ⟨-, h', -⟩ | ⟨-, h', -⟩ | ⟨-, -, h', -⟩ <;> simp_all
  · rename_i S₁ hlook
    obtain ⟨S₃, hrem, heq⟩ := Option.map_eq_some_iff.1 h
    simp only [Prod.mk.injEq] at heq
    obtain ⟨rfl, rfl⟩ := heq
    exact ⟨rfl, S₁, S₃, hlook, hrem, rfl⟩

end Argentum.Mm
