import Argentum.Mm.VmRefCount

/-!
# Argentum.Mm.VmFrame

What the primitives of `vm.c` change besides reference counts: which entries, and the bytes
of which pages. `arch_vm_lookup`, `vm_page_remove` and `vm_page_insert` touch the entry at
`va` only, and the bytes of pages they take from the free list only. `vm_page_cow` maps at
`va` a page that no other entry maps, holding the bytes of the page it replaces, so that no
user address reads another byte after it: copying on write is invisible until the write.

`VmState.userByte S t a` is the byte a user of page table `t` reads at address `a`.
-/

namespace Argentum.Mm

variable {tables : Finset Nat} {S S' : VmState} {pgtab va page : Nat}

/-- The byte at user address `a` of page table `t`, when a page is mapped there. -/
def VmState.userByte (S : VmState) (t a : Nat) : Option UInt8 :=
  (S.pageEntry t a).map fun e => S.mem e.addr (a % pageSize)

/-- No entry but the one at `(t, v)` maps page `p`. -/
def MappedOnlyBy (pte : Nat → Nat → Option Pte) (p t v : Nat) : Prop :=
  ∀ t' v' e, pte t' v' = some e → e.addr = p → (t', v') = (t, v)

theorem pageEntry_congr {t a : Nat} (h : S'.pte t (a / pageSize) = S.pte t (a / pageSize)) :
    S'.pageEntry t a = S.pageEntry t a := by
  unfold VmState.pageEntry
  rw [h]

/-- A byte reads the same where the entry and the byte of its page are the same. -/
theorem userByte_congr {t a : Nat} (hp : S'.pte t (a / pageSize) = S.pte t (a / pageSize))
    (hm : ∀ e, S.pageEntry t a = some e →
      S'.mem e.addr (a % pageSize) = S.mem e.addr (a % pageSize)) :
    S'.userByte t a = S.userByte t a := by
  unfold VmState.userByte
  rw [pageEntry_congr hp]
  cases he : S.pageEntry t a with
  | none => rfl
  | some e => simp only [Option.map_some, hm e he]

theorem pageEntry_div {t a a' : Nat} (h : a / pageSize = a' / pageSize) :
    S.pageEntry t a = S.pageEntry t a' := by
  unfold VmState.pageEntry
  rw [h]

theorem userByte_of_pageEntry {t a : Nat} {e : Pte} (h : S.pageEntry t a = some e) :
    S.userByte t a = some (S.mem e.addr (a % pageSize)) := by
  unfold VmState.userByte
  rw [h]
  rfl

theorem userByte_of_pte {t a p : Nat} {fl : VmFlags} (hfl : fl.page = true)
    (h : S.pte t (a / pageSize) = some ⟨p, fl⟩) :
    S.userByte t a = some (S.mem p (a % pageSize)) := by
  refine userByte_of_pageEntry (e := ⟨p, fl⟩) ?_
  unfold VmState.pageEntry
  rw [h]
  simp [hfl]

/-- An entry of the tables of an invariant state is a `VM_PAGE` entry. -/
theorem VmInv.pageEntry_of_pte (hI : VmInv tables S) {t v : Nat} {e : Pte}
    (h : S.pte t (v / pageSize) = some e) : S.pageEntry t v = some e := by
  unfold VmState.pageEntry
  rw [h]
  simp [hI.shape.flagged _ _ e h]

/-- A mapped page is not free. -/
theorem VmInv.not_free_of_pte (hI : VmInv tables S) {t v : Nat} {e : Pte}
    (h : S.pte t v = some e) : e.addr ∉ S.free := by
  intro hfree
  exact absurd (hI.onlyAt_of_free hfree (v + 1) t v e h rfl) (Nat.ne_of_lt (Nat.lt_succ_self v))

/-- Where the entry at `a` is the same and mapped pages keep their bytes, `a` reads the same. -/
theorem VmInv.userByte_of_frame (hI : VmInv tables S) {u a : Nat}
    (hp : S'.pte u (a / pageSize) = S.pte u (a / pageSize))
    (hm : ∀ q, q ∉ S.free → S'.mem q = S.mem q) : S'.userByte u a = S.userByte u a :=
  userByte_congr hp fun e he => by rw [hm _ (hI.not_free_of_pte (pte_of_pageEntry he))]

/-- A page mapped once, at `(t, v)`, is mapped by that entry only. -/
theorem VmInv.onlyBy_of_count (hI : VmInv tables S) {t v : Nat} {e : Pte}
    (h : S.pte t v = some e) (hc : mapCount tables S.pte e.addr = 1) :
    MappedOnlyBy S.pte e.addr t v := by
  intro t' v' e' h' hadd
  have hmem : ∀ {t v e}, S.pte t v = some e → e.addr = e'.addr → (t, v) ∈
      (userSlots tables).filter fun x => entryMaps (S.pte x.1 x.2) e'.addr = true := by
    intro t v e he hea
    have hslot := (hI.shape.slots t v (by rw [he]; exact Option.some_ne_none e)).1
    refine Finset.mem_filter.2 ⟨hslot, ?_⟩
    simp [he, entryMaps, hI.shape.flagged t v e he, hea]
  have hle : ((userSlots tables).filter fun x =>
      entryMaps (S.pte x.1 x.2) e'.addr = true).card ≤ 1 := by
    rw [← hadd] at hc
    exact hc.le
  exact (Finset.card_le_one.1 hle _ (hmem h' rfl) _ (hmem h hadd.symm))

/-- A free page is mapped by no entry. -/
theorem VmInv.onlyBy_of_free (hI : VmInv tables S) {p : Nat} (hp : p ∈ S.free) (t v : Nat) :
    MappedOnlyBy S.pte p t v := fun _ _ _ h hadd =>
  absurd (hadd ▸ hp) (hI.not_free_of_pte h)

/-- Setting the entry at `(t, v)` keeps a page that only it mapped mapped by it only. -/
theorem MappedOnlyBy.setPte {p t v : Nat} (h : MappedOnlyBy S.pte p t v) (e : Option Pte) :
    MappedOnlyBy (S.setPte t v e).pte p t v := by
  intro t' v' e' he' hadd
  by_cases hx : (t', v') = (t, v)
  · exact hx
  · rw [setPte_pte_of_ne S e hx] at he'
    exact h t' v' e' he' hadd

/-! ## Page tables and the page allocator -/

/-- `arch_vm_lookup` leaves the entries, and the bytes of every page off the free list. -/
theorem archVmLookup_frame {alloc b : Bool} (h : archVmLookup S pgtab va alloc = some (S', b)) :
    S'.pte = S.pte ∧ ∀ q, q ∉ S.free → S'.mem q = S.mem q := by
  obtain ⟨-, hcases⟩ := archVmLookup_inv h
  rcases hcases with ⟨-, -, rfl⟩ | ⟨-, -, -, rfl⟩ | ⟨-, -, -, S₁, tp, halloc, rfl⟩
  · exact ⟨rfl, fun _ _ => rfl⟩
  · exact ⟨rfl, fun _ _ => rfl⟩
  · -- the second-level table comes off the free list, zeroed
    obtain ⟨rest, hfree, -, -, rfl⟩ := pageAllocOne_inv halloc
    refine ⟨rfl, fun q hq => ?_⟩
    have hqt : q ≠ tp := by
      rintro rfl
      exact hq (by rw [hfree]; exact List.mem_cons_self)
    simp [Function.update_of_ne hqt]

/-- `vm_page_remove` clears the entry at `va` or leaves the entries, and no bytes. -/
theorem vmPageRemove_frame (h : vmPageRemove S pgtab va = some S') :
    (S'.pte = S.pte ∨ S'.pte = (S.setPte pgtab (va / pageSize) none).pte) ∧ S'.mem = S.mem := by
  obtain ⟨-, ⟨-, rfl⟩ | ⟨e, S₂, -, -, -, hdrop, rfl⟩⟩ := vmPageRemove_inv h
  · exact ⟨Or.inl rfl, rfl⟩
  · rcases pageDropRef_inv hdrop with ⟨-, rfl⟩ | ⟨-, rfl⟩ <;> exact ⟨Or.inr rfl, rfl⟩

/-- `vm_page_insert` sets the entry at `va` and no other, and changes the bytes of free pages
only. -/
theorem vmPageInsert_frame {flags : VmFlags} {r : Int}
    (h : vmPageInsert S pgtab page va flags = some (S', r)) :
    S'.pte = (S.setPte pgtab (va / pageSize) (some ⟨page, { flags with page := true }⟩)).pte ∧
      ∀ q, q ∉ S.free → S'.mem q = S.mem q := by
  obtain ⟨-, S₁, S₃, hlook, hrem, rfl⟩ := vmPageInsert_inv h
  obtain ⟨hpte₁, hmem₁⟩ := archVmLookup_frame hlook
  obtain ⟨hpte₃, hmem₃⟩ := vmPageRemove_frame hrem
  refine ⟨?_, fun q hq => ?_⟩
  · -- whatever the removal did at `va`, the new entry replaces it
    rcases hpte₃ with hpte₃ | hpte₃ <;> simp [hpte₃, hpte₁]
  · simp [hmem₃, hmem₁ q hq]

/-! ## Copying on write -/

/-- `S'` is `S` with the entry at `(t, v)`, which mapped page `old`, now mapping `p` writable
and without `VM_COW`, where no other entry maps `p`; `p` is `old` or was free, holds the bytes
of `old`, and besides `p` only free pages changed bytes: what copying on write does. -/
structure CowStep (S S' : VmState) (t v old p : Nat) : Prop where
  pte : ∃ fl : VmFlags, fl.cow = false ∧ fl.write = true ∧ fl.page = true ∧
    S'.pte = (S.setPte t v (some ⟨p, fl⟩)).pte
  only : MappedOnlyBy S'.pte p t v
  fresh : p = old ∨ p ∈ S.free
  copied : ∀ o, S'.mem p o = S.mem old o
  mem : ∀ q, q ∉ S.free → q ≠ p → S'.mem q = S.mem q

/-- Copying on write changes no byte that a user reads. -/
theorem CowStep.userByte (hI : VmInv tables S) {t v p : Nat} {e : Pte}
    (hx : S.pte t v = some e) (hc : CowStep S S' t v e.addr p) (u a : Nat) :
    S'.userByte u a = S.userByte u a := by
  obtain ⟨fl, -, -, hfl, hpte⟩ := hc.pte
  by_cases hy : (u, a / pageSize) = (t, v)
  · -- the slot copied: the new page holds the bytes of the old
    obtain ⟨rfl, hv⟩ := Prod.mk.inj hy
    have hnew : S'.pageEntry u a = some ⟨p, fl⟩ := by
      unfold VmState.pageEntry
      rw [hpte, hv, setPte_pte_self]
      simp [hfl]
    have hold : S.pageEntry u a = some e := hI.pageEntry_of_pte (by rw [hv]; exact hx)
    unfold VmState.userByte
    rw [hnew, hold]
    simp [hc.copied]
  · -- any other slot keeps its entry, and its page, which is not free, keeps its bytes
    have hp : S'.pte u (a / pageSize) = S.pte u (a / pageSize) := by
      rw [hpte, setPte_pte_of_ne S _ hy]
    refine userByte_congr hp fun e' he' => ?_
    have hx' := pte_of_pageEntry he'
    by_cases hq : e'.addr = p
    · rcases hc.fresh with rfl | hfree
      · rw [hq, hc.copied]
      · exact absurd (hq ▸ hfree) (hI.not_free_of_pte hx')
    · rw [hc.mem _ (hI.not_free_of_pte hx') hq]

/-- `vm_page_cow` on the page mapped at `va` copies on write: in place when that mapping holds
the only reference, so that no other entry maps the page, and on a fresh copy otherwise. -/
theorem VmInv.vmPageCow_frame (hI : VmInv tables S) {e : Pte} {flags : VmFlags}
    {res : Option Nat} (he : S.pageEntry pgtab va = some e)
    (h : Argentum.Mm.vmPageCow S pgtab va e.addr flags = some (S', res)) :
    ∃ p, res = some p ∧ CowStep S S' pgtab (va / pageSize) e.addr p := by
  have hx := pte_of_pageEntry he
  have hnf := hI.not_free_of_pte hx
  unfold Argentum.Mm.vmPageCow at h
  split at h
  · contradiction
  · dsimp only at h
    split at h
    · -- one reference: by the count, the mapping at `va` is the only one
      rename_i hone
      split at h
      · contradiction
      · rename_i S₁ r hins
        obtain ⟨hpte, hmem⟩ := vmPageInsert_frame hins
        obtain ⟨rfl, -⟩ := vmPageInsert_inv hins
        simp only [Int.lt_irrefl, if_false, Option.some.injEq, Prod.mk.injEq] at h
        obtain ⟨rfl, rfl⟩ := h
        obtain ⟨-, -, href⟩ := hI.mapped_ref he
        have hc : mapCount tables S.pte e.addr = 1 := by
          rw [← hone, href, Nat.add_zero]
        refine ⟨e.addr, rfl, ⟨_, rfl, rfl, rfl, hpte⟩, ?_, Or.inl rfl,
          fun o => by rw [hmem _ hnf], fun q hq _ => hmem q hq⟩
        rw [hpte]
        exact (hI.onlyBy_of_count hx hc).setPte _
    · -- shared: a zeroed page off the free list takes the bytes and the mapping
      split at h
      · contradiction
      · rename_i S₁ copy halloc
        split at h
        · contradiction
        · rename_i S₃ r hins
          obtain ⟨rest, hfree, -, -, rfl⟩ := pageAllocOne_inv halloc
          obtain ⟨hpte, hmem⟩ := vmPageInsert_frame hins
          obtain ⟨rfl, -⟩ := vmPageInsert_inv hins
          simp only [Int.lt_irrefl, if_false, Option.some.injEq, Prod.mk.injEq] at h
          obtain ⟨rfl, rfl⟩ := h
          have hcopy : copy ∈ S.free := by rw [hfree]; exact List.mem_cons_self
          have hnd := hI.freeNodup
          rw [hfree] at hnd
          have hne : e.addr ≠ copy := fun heq => hnf (heq ▸ hcopy)
          refine ⟨copy, rfl, ⟨_, rfl, rfl, rfl, hpte⟩, ?_, Or.inr hcopy, fun o => ?_,
            fun q hq hqc => ?_⟩
          · rw [hpte]
            exact (hI.onlyBy_of_free hcopy _ _).setPte _
          · rw [hmem copy (List.nodup_cons.1 hnd).1]
            simp [Function.update_of_ne hne]
          · have hq' : q ∉ rest := fun h => hq (by rw [hfree]; exact List.mem_cons_of_mem _ h)
            rw [hmem q hq']
            simp [Function.update_of_ne hqc]

/-- After copying on write the slot maps the page it copied to, without `VM_COW`. -/
theorem CowStep.pageEntry {t v old p : Nat} (hc : CowStep S S' t v old p) {a : Nat}
    (ha : a / pageSize = v) :
    ∃ e, S'.pageEntry t a = some e ∧ e.addr = p ∧ e.flags.cow = false := by
  obtain ⟨fl, hcow, -, hfl, hpte⟩ := hc.pte
  refine ⟨⟨p, fl⟩, ?_, rfl, hcow⟩
  unfold VmState.pageEntry
  rw [hpte, ha, setPte_pte_self]
  simp [hfl]

/-- `vm_page_lookup_cow` leaves the state, having found a mapping without `VM_COW`, or copies
a copy-on-write mapping on write and finds the page it copied to. -/
theorem VmInv.vmPageLookupCow_frame (hI : VmInv tables S) {res : Except Int (Nat × VmFlags)}
    (h : Argentum.Mm.vmPageLookupCow S pgtab va = some (S', res)) :
    (S' = S ∧ ∀ p fl, res = .ok (p, fl) →
        ∃ e, S.pageEntry pgtab va = some e ∧ e.addr = p ∧ e.flags.cow = false) ∨
      ∃ e p, S.pageEntry pgtab va = some e ∧ CowStep S S' pgtab (va / pageSize) e.addr p ∧
        ∀ p' fl, res = .ok (p', fl) → p' = p := by
  unfold Argentum.Mm.vmPageLookupCow at h
  split at h
  · contradiction
  · cases h
    exact Or.inl ⟨rfl, fun _ _ h => by cases h⟩
  · rename_i page flags hlook
    obtain ⟨-, ⟨hres, -⟩ | ⟨e, -, he, -, hres⟩⟩ := vmPageLookup_inv hlook
    · contradiction
    obtain ⟨rfl, rfl⟩ := Prod.mk.inj (Option.some.inj hres)
    split at h
    · split at h
      · contradiction
      · rename_i S₁ hc
        obtain ⟨p, hp, -⟩ := hI.vmPageCow_frame he hc
        cases hp
      · rename_i S₁ p hc
        cases h
        obtain ⟨p', hp, hstep⟩ := hI.vmPageCow_frame he hc
        cases hp
        exact Or.inr ⟨e, _, he, hstep, fun _ _ h => by cases h; rfl⟩
    · rename_i hcow
      cases h
      exact Or.inl ⟨rfl, fun _ _ h => by cases h; exact ⟨e, he, rfl, by simpa using hcow⟩⟩

/-- `vm_page_lookup_cow` changes no byte that a user reads. -/
theorem VmInv.vmPageLookupCow_userByte (hI : VmInv tables S) {res : Except Int (Nat × VmFlags)}
    (h : Argentum.Mm.vmPageLookupCow S pgtab va = some (S', res)) (u a : Nat) :
    S'.userByte u a = S.userByte u a := by
  rcases hI.vmPageLookupCow_frame h with ⟨rfl, -⟩ | ⟨e, p, he, hc, -⟩
  · rfl
  · exact hc.userByte hI (pte_of_pageEntry he) u a

end Argentum.Mm
