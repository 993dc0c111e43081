import Mathlib
import Argentum.Lib.FilterCount
import Argentum.Mm.VmOps

/-!
# Argentum.Mm.VmRefCount

Reference counts of anonymous pages against the page tables that map them.

`mapCount tables pte p` counts the valid `VM_PAGE` entries of the page tables of `tables`
that map page `p`. The run invariant `VmInv` says that an anonymous page's `ref_count` is
that count, that such a page is mapped at all (it is never left allocated while unmapped),
and that a mapped page is anonymous and so not free.

Inside a call the count and the reference count part: `vm_page_insert` takes the new
reference before it removes the old mapping, and a page just taken from the allocator is not
mapped yet. `VmInvOn tables S fresh extra` is the invariant with those two allowances:
`extra p` references of `p` not yet backed by an entry, and `fresh p` for a page that may be
unreferenced. Each primitive keeps it, with the allowance it needs.
-/

namespace Argentum.Mm

open FilterCount

/-! ## Counting mappings -/

/-- The slots of the page tables of `tables` below `VIRT_KERNEL_BASE`. -/
def userSlots (tables : Finset Nat) : Finset (Nat × Nat) := tables ×ˢ Finset.range userPages

/-- Whether an entry is a valid `VM_PAGE` mapping of `page`. -/
def entryMaps (e : Option Pte) (page : Nat) : Bool :=
  match e with
  | some e => e.flags.page && e.addr == page
  | none => false

/-- The number of valid `VM_PAGE` entries of the tables of `tables` that map `page`. -/
def mapCount (tables : Finset Nat) (pte : Nat → Nat → Option Pte) (page : Nat) : Nat :=
  ((userSlots tables).filter fun x => entryMaps (pte x.1 x.2) page = true).card

variable {tables : Finset Nat} {S S' : VmState} {pgtab va page : Nat}

theorem setPte_pte_self (S : VmState) (t v : Nat) (e : Option Pte) :
    (S.setPte t v e).pte t v = e := by
  simp

theorem setPte_pte_of_ne (S : VmState) {t v : Nat} (e : Option Pte) {x : Nat × Nat}
    (hx : x ≠ (t, v)) : (S.setPte t v e).pte x.1 x.2 = S.pte x.1 x.2 := by
  by_cases ht : x.1 = t
  · have hv : x.2 ≠ v := fun hv => hx (Prod.ext ht hv)
    rw [setPte_pte, ht, Function.update_self, Function.update_of_ne hv, ← ht]
  · rw [setPte_pte, Function.update_of_ne ht]

/-- Clearing an entry leaves entries of `S` only. -/
theorem setPte_none_sub (S : VmState) (t v : Nat) {t' v' : Nat} {e : Pte}
    (he : (S.setPte t v none).pte t' v' = some e) : S.pte t' v' = some e := by
  by_cases hx : (t', v') = (t, v)
  · obtain ⟨rfl, rfl⟩ := Prod.mk.inj hx
    simp at he
  · rwa [setPte_pte_of_ne S none hx] at he

/-- Setting one entry changes each page's count by that entry alone. -/
theorem mapCount_setPte {t v : Nat} (hx : (t, v) ∈ userSlots tables) (e : Option Pte)
    (p : Nat) :
    mapCount tables (S.setPte t v e).pte p + (if entryMaps (S.pte t v) p then 1 else 0) =
      mapCount tables S.pte p + (if entryMaps e p then 1 else 0) := by
  have key : ∀ x ∈ userSlots tables, x ≠ (t, v) →
      (entryMaps (S.pte x.1 x.2) p = true ↔ entryMaps ((S.setPte t v e).pte x.1 x.2) p = true) :=
    fun x _ hne => by rw [setPte_pte_of_ne S e hne]
  have h := card_filter_add_ite hx key
  rw [setPte_pte_self] at h
  exact h

/-- A slot holding a mapping of `page` makes its count positive. -/
theorem mapCount_pos {pte : Nat → Nat → Option Pte} {t v : Nat} (hx : (t, v) ∈ userSlots tables)
    (h : entryMaps (pte t v) page = true) : 0 < mapCount tables pte page :=
  Finset.card_pos.2 ⟨(t, v), Finset.mem_filter.2 ⟨hx, h⟩⟩

theorem entryMaps_of_pageEntry {e : Pte} (h : S.pageEntry pgtab va = some e) :
    entryMaps (S.pte pgtab (va / pageSize)) e.addr = true := by
  unfold VmState.pageEntry at h
  split at h
  · rename_i e' he'
    split at h
    · rename_i hpage
      cases h
      simp [he', entryMaps, hpage]
    · contradiction
  · contradiction

theorem not_entryMaps_of_pageEntry (h : S.pageEntry pgtab va = none) (p : Nat) :
    entryMaps (S.pte pgtab (va / pageSize)) p = false := by
  unfold VmState.pageEntry at h
  split at h
  · rename_i e' he'
    split at h
    · contradiction
    · rename_i hpage
      simp [he', entryMaps, hpage]
  · rename_i he'
    simp [he', entryMaps]

@[simp] theorem entryMaps_none (q : Nat) : entryMaps none q = false := rfl

/-- The entry a lookup found maps its page and no other. -/
theorem entryMaps_iff_of_pageEntry {e : Pte} (h : S.pageEntry pgtab va = some e) (q : Nat) :
    entryMaps (S.pte pgtab (va / pageSize)) q = true ↔ q = e.addr := by
  unfold VmState.pageEntry at h
  split at h
  · rename_i e' he'
    split at h
    · rename_i hpage
      cases h
      rw [he']
      simp only [entryMaps, hpage, Bool.true_and, beq_iff_eq]
      exact eq_comm
    · contradiction
  · contradiction

theorem entryMaps_some_iff (page q : Nat) (flags : VmFlags) :
    entryMaps (some ⟨page, { flags with page := true }⟩) q = true ↔ q = page := by
  simp only [entryMaps, Bool.true_and, beq_iff_eq]
  exact eq_comm

theorem l1Idx_div_mul (va : Nat) : l1Idx (va / pageSize * pageSize) = l1Idx va := by
  unfold l1Idx pageSize
  simp only [Nat.shiftRight_eq_div_pow]
  omega

theorem div_pageSize_lt_userPages (h : va < virtKernelBase) : va / pageSize < userPages := by
  unfold userPages virtKernelBase pageSize at *
  omega

theorem mem_userSlots (ht : pgtab ∈ tables) (hva : va < virtKernelBase) :
    (pgtab, va / pageSize) ∈ userSlots tables :=
  Finset.mem_product.2 ⟨ht, Finset.mem_range.2 (div_pageSize_lt_userPages hva)⟩

theorem pageTagAnon_ne_zero : pageTagAnon ≠ 0 := by decide

theorem pageTagPgtab_ne_anon : pageTagPgtab ≠ pageTagAnon := by decide

/-! ## The invariant -/

/-- Every entry that maps `p` is for virtual page `v`. -/
def MappedOnlyAt (pte : Nat → Nat → Option Pte) (p v : Nat) : Prop :=
  ∀ t w e, pte t w = some e → e.addr = p → w = v

theorem MappedOnlyAt.mono {pte pte' : Nat → Nat → Option Pte} {p v : Nat}
    (h : MappedOnlyAt pte p v) (hsub : ∀ t w e, pte' t w = some e → pte t w = some e) :
    MappedOnlyAt pte' p v := fun t w e he => h t w e (hsub t w e he)

/-- The shape of the page tables: valid entries are `VM_PAGE` entries of the tables of the
run, below the kernel and under a second-level table, and a page is mapped at one virtual
page only, since `vm_user_clone` maps a page at the address it had. -/
structure TablesOk (tables : Finset Nat) (pte : Nat → Nat → Option Pte)
    (l1 : Nat → Nat → Bool) : Prop where
  slots : ∀ t v, pte t v ≠ none → (t, v) ∈ userSlots tables ∧ l1 t (l1Idx (v * pageSize)) = true
  flagged : ∀ t v e, pte t v = some e → e.flags.page = true
  sameVpn : ∀ t v e, pte t v = some e → MappedOnlyAt pte e.addr v

theorem TablesOk.grow {l1 l1' : Nat → Nat → Bool} (h : TablesOk tables S.pte l1)
    (hl : ∀ t i, l1 t i = true → l1' t i = true) : TablesOk tables S.pte l1' where
  slots := fun t v hne => ⟨(h.slots t v hne).1, hl _ _ (h.slots t v hne).2⟩
  flagged := h.flagged
  sameVpn := h.sameVpn

/-- Clearing an entry keeps the shape. -/
theorem TablesOk.setPte_none {l1 : Nat → Nat → Bool} (h : TablesOk tables S.pte l1)
    (t v : Nat) : TablesOk tables (S.setPte t v none).pte l1 := by
  have hold : ∀ t' v' e, (S.setPte t v none).pte t' v' = some e → S.pte t' v' = some e :=
    fun _ _ _ he => setPte_none_sub S t v he
  refine ⟨fun t' v' hne => ?_, fun t' v' e he => h.flagged t' v' e (hold t' v' e he),
    fun t' v' e he t'' v'' e' he' =>
      h.sameVpn t' v' e (hold t' v' e he) t'' v'' e' (hold _ _ _ he')⟩
  obtain ⟨e, he⟩ := Option.ne_none_iff_exists'.1 hne
  exact h.slots t' v' (by rw [hold t' v' e he]; exact Option.some_ne_none e)

/-- Setting an entry of a slot of the run, under a second-level table, to a page mapped at
that virtual page only keeps the shape. -/
theorem TablesOk.setPte_some {l1 : Nat → Nat → Bool} (h : TablesOk tables S.pte l1)
    {t v p : Nat} (flags : VmFlags) (hslot : (t, v) ∈ userSlots tables)
    (hl1 : l1 t (l1Idx (v * pageSize)) = true) (honly : MappedOnlyAt S.pte p v) :
    TablesOk tables (S.setPte t v (some ⟨p, { flags with page := true }⟩)).pte l1 := by
  -- an entry is the new one, or an entry of `S`
  have hcases : ∀ t' v' e, (S.setPte t v (some ⟨p, { flags with page := true }⟩)).pte t' v' =
      some e → ((t', v') = (t, v) ∧ e = ⟨p, { flags with page := true }⟩) ∨
        ((t', v') ≠ (t, v) ∧ S.pte t' v' = some e) := by
    intro t' v' e he
    by_cases hx : (t', v') = (t, v)
    · obtain ⟨rfl, rfl⟩ := Prod.mk.inj hx
      simp only [setPte_pte_self, Option.some.injEq] at he
      exact Or.inl ⟨rfl, he.symm⟩
    · rw [setPte_pte_of_ne S _ hx] at he
      exact Or.inr ⟨hx, he⟩
  refine ⟨fun t' v' hne => ?_, fun t' v' e he => ?_, fun t' v' e he t'' v'' e' he' hadd => ?_⟩
  · obtain ⟨e, he⟩ := Option.ne_none_iff_exists'.1 hne
    rcases hcases t' v' e he with ⟨hx, -⟩ | ⟨-, hold⟩
    · obtain ⟨rfl, rfl⟩ := Prod.mk.inj hx
      exact ⟨hslot, hl1⟩
    · exact h.slots t' v' (by rw [hold]; exact Option.some_ne_none e)
  · rcases hcases t' v' e he with ⟨-, rfl⟩ | ⟨-, hold⟩
    · rfl
    · exact h.flagged t' v' e hold
  · -- two entries of one page: new and new, new and old, old and new, old and old
    rcases hcases t' v' e he with ⟨hx, rfl⟩ | ⟨hx, hold⟩ <;>
      rcases hcases t'' v'' e' he' with ⟨hx', rfl⟩ | ⟨hx', hold'⟩
    · rw [(Prod.mk.inj hx).2, (Prod.mk.inj hx').2]
    · rw [(Prod.mk.inj hx).2]
      exact honly t'' v'' e' hold' hadd
    · rw [(Prod.mk.inj hx').2]
      exact (honly t' v' e hold hadd.symm).symm
    · exact h.sameVpn t' v' e hold t'' v'' e' hold' hadd

/-- What the invariant asks of one page, from its descriptor, its mapping count, the
references not backed by an entry, whether it may be fresh and whether it is free. -/
structure PageOk (d : PageDesc) (count extra : Nat) (fresh free : Prop) : Prop where
  /-- An anonymous page's references are its mappings and the allowance. -/
  counts : d.debugTag = pageTagAnon → d.refCount = count + extra
  /-- An anonymous page is referenced, unless it is fresh. -/
  live : d.debugTag = pageTagAnon → 0 < d.refCount ∨ fresh
  /-- A mapped page is anonymous. -/
  mapped : 0 < count → d.debugTag = pageTagAnon
  /-- A free page is untagged and unreferenced. -/
  clean : free → d.debugTag = 0 ∧ d.refCount = 0

theorem PageOk.of_eq {d d' : PageDesc} {c c' e e' : Nat} {f f' fr fr' : Prop}
    (h : PageOk d c e f fr) (hd : d' = d) (hc : c' = c) (he : e' = e) (hf : f → f')
    (hfr : fr' → fr) : PageOk d' c' e' f' fr' := by
  subst hd hc he
  exact ⟨h.counts, fun ht => (h.live ht).imp_right hf, h.mapped, fun hx => h.clean (hfr hx)⟩

/-- A change of mapping count that the allowance makes up for. -/
theorem PageOk.shift {d : PageDesc} {c c' e e' : Nat} {f fr : Prop} (h : PageOk d c e f fr)
    (hce : c' + e' = c + e) (hm : 0 < c' → d.debugTag = pageTagAnon) : PageOk d c' e' f fr :=
  ⟨fun ht => (h.counts ht).trans hce.symm, h.live, hm, h.clean⟩

/-- A page just given back to the allocator, untagged and unreferenced, and unmapped. -/
theorem PageOk.freed {d : PageDesc} {c e : Nat} {f fr : Prop}
    (hd : d.debugTag = 0 ∧ d.refCount = 0) (hc : c = 0) : PageOk d c e f fr where
  counts := fun ht => absurd (hd.1.symm.trans ht) pageTagAnon_ne_zero.symm
  live := fun ht => absurd (hd.1.symm.trans ht) pageTagAnon_ne_zero.symm
  mapped := fun hpos => absurd hc (Nat.pos_iff_ne_zero.1 hpos)
  clean := fun _ => hd

/-- An anonymous page is not free. -/
theorem PageOk.not_free {d : PageDesc} {c e : Nat} {f fr : Prop} (h : PageOk d c e f fr)
    (ht : d.debugTag = pageTagAnon) : ¬ fr := fun hfr =>
  pageTagAnon_ne_zero (ht.symm.trans (h.clean hfr).1)

/-- The counting invariant, with `extra p` references of `p` not backed by an entry yet and
`fresh` the pages that may be allocated and still unreferenced. -/
structure VmInvOn (tables : Finset Nat) (S : VmState) (fresh : Nat → Prop)
    (extra : Nat → Nat) : Prop where
  shape : TablesOk tables S.pte S.l1
  page : ∀ p, PageOk (S.pages p) (mapCount tables S.pte p) (extra p) (fresh p) (p ∈ S.free)
  freeNodup : S.free.Nodup

/-- The invariant between calls: every reference is an entry, every anonymous page mapped. -/
def VmInv (tables : Finset Nat) (S : VmState) : Prop :=
  VmInvOn tables S (fun _ => False) (fun _ => 0)

section Primitives

variable {fresh : Nat → Prop} {extra : Nat → Nat}

/-- A free page is not mapped. -/
theorem VmInvOn.mapCount_free (hI : VmInvOn tables S fresh extra) {p : Nat} (hp : p ∈ S.free) :
    mapCount tables S.pte p = 0 := by
  by_contra hne
  exact (hI.page p).not_free ((hI.page p).mapped (Nat.pos_of_ne_zero hne)) hp

/-- The slot of a lookup that found an entry is a slot of the run. -/
theorem VmInvOn.slot_of_pageEntry (hI : VmInvOn tables S fresh extra) {e : Pte}
    (h : S.pageEntry pgtab va = some e) : (pgtab, va / pageSize) ∈ userSlots tables := by
  have hne : S.pte pgtab (va / pageSize) ≠ none := by
    intro hnone
    unfold VmState.pageEntry at h
    rw [hnone] at h
    contradiction
  exact (hI.shape.slots _ _ hne).1

/-- A mapped page is anonymous, and referenced by its mappings and the allowance. -/
theorem VmInvOn.mapped_ref (hI : VmInvOn tables S fresh extra) {e : Pte}
    (h : S.pageEntry pgtab va = some e) :
    (S.pages e.addr).debugTag = pageTagAnon ∧ 0 < mapCount tables S.pte e.addr ∧
      (S.pages e.addr).refCount = mapCount tables S.pte e.addr + extra e.addr := by
  have hpos := mapCount_pos (hI.slot_of_pageEntry h) (entryMaps_of_pageEntry h)
  have htag := (hI.page _).mapped hpos
  exact ⟨htag, hpos, (hI.page _).counts htag⟩

/-- With no second-level table at `va`, there is no entry there. -/
theorem VmInvOn.pageEntry_of_l1 (hI : VmInvOn tables S fresh extra)
    (h : S.l1 pgtab (l1Idx va) = false) : S.pageEntry pgtab va = none := by
  have hnone : S.pte pgtab (va / pageSize) = none := by
    by_contra hne
    have := (hI.shape.slots _ _ hne).2
    rw [l1Idx_div_mul, h] at this
    contradiction
  unfold VmState.pageEntry
  rw [hnone]

/-- A page mapped at `va` is mapped at that virtual page only. -/
theorem VmInvOn.onlyAt (hI : VmInvOn tables S fresh extra) {e : Pte}
    (h : S.pageEntry pgtab va = some e) : MappedOnlyAt S.pte e.addr (va / pageSize) :=
  hI.shape.sameVpn _ _ e (pte_of_pageEntry h)

/-- A free page is mapped nowhere. -/
theorem VmInvOn.onlyAt_of_free (hI : VmInvOn tables S fresh extra) {p : Nat} (hp : p ∈ S.free)
    (v : Nat) : MappedOnlyAt S.pte p v := by
  intro t w e he hep
  have hmaps : entryMaps (S.pte t w) p = true := by
    simp [he, entryMaps, hI.shape.flagged t w e he, hep]
  have hslot := (hI.shape.slots t w (by rw [he]; exact Option.some_ne_none e)).1
  have := hI.mapCount_free hp
  have := mapCount_pos hslot hmaps
  omega

/-- A page just taken from the allocator is mapped nowhere. -/
theorem VmInvOn.onlyAt_of_alloc (hI : VmInvOn tables S fresh extra) {tag : Nat}
    (h : Argentum.Mm.pageAllocOne S tag = some (S', page)) (v : Nat) :
    MappedOnlyAt S'.pte page v := by
  obtain ⟨rest, hfree, -, -, rfl⟩ := pageAllocOne_inv h
  exact hI.onlyAt_of_free (by rw [hfree]; exact List.mem_cons_self) v

/-- A page that cannot be anonymous and unreferenced leaves `fresh`. -/
theorem VmInvOn.mono_fresh {fresh' : Nat → Prop} (hI : VmInvOn tables S fresh extra)
    (h : ∀ p, (S.pages p).debugTag = pageTagAnon → fresh p →
      0 < (S.pages p).refCount ∨ fresh' p) :
    VmInvOn tables S fresh' extra where
  shape := hI.shape
  page := fun p => ⟨(hI.page p).counts, fun ht => ((hI.page p).live ht).elim Or.inl (h p ht),
    (hI.page p).mapped, (hI.page p).clean⟩
  freeNodup := hI.freeNodup

/-- The bytes of pages are no part of the invariant. -/
theorem VmInvOn.setMem (hI : VmInvOn tables S fresh extra) (mem : Nat → Nat → UInt8) :
    VmInvOn tables { S with mem } fresh extra := ⟨hI.shape, hI.page, hI.freeNodup⟩

/-- Filling in first-level entries keeps the invariant. -/
theorem VmInvOn.grow_l1 (hI : VmInvOn tables S fresh extra) {l1 : Nat → Nat → Bool}
    (hl : ∀ t i, S.l1 t i = true → l1 t i = true) : VmInvOn tables { S with l1 } fresh extra where
  shape := hI.shape.grow hl
  page := hI.page
  freeNodup := hI.freeNodup

/-- Taking a page from the allocator: it was free, so unmapped; tagged anonymous it is fresh. -/
theorem VmInvOn.pageAllocOne (hI : VmInvOn tables S fresh extra) {tag : Nat}
    (h : Argentum.Mm.pageAllocOne S tag = some (S', page))
    (hex : tag = pageTagAnon → extra page = 0) :
    VmInvOn tables S' (fun q => fresh q ∨ q = page) extra ∧ S'.pte = S.pte ∧ S'.l1 = S.l1 ∧
      (S'.pages page).debugTag = tag ∧ (S'.pages page).refCount = 0 ∧
      (∀ q, q ≠ page → S'.pages q = S.pages q) ∧ page ∉ S'.free ∧ page ∈ S.free := by
  obtain ⟨rest, hfree, href, htag, rfl⟩ := pageAllocOne_inv h
  have hmem : page ∈ S.free := by rw [hfree]; exact List.mem_cons_self
  have hcount := hI.mapCount_free hmem
  have hnd := hI.freeNodup
  rw [hfree] at hnd
  refine ⟨⟨hI.shape, fun q => ?_, (List.nodup_cons.1 hnd).2⟩, rfl, rfl, by simp, by simp [href],
    fun q hq => by simp [hq], (List.nodup_cons.1 hnd).1, hmem⟩
  by_cases hq : q = page
  · subst hq
    refine ⟨fun ht => ?_, fun _ => Or.inr (Or.inr rfl), fun hc => ?_, fun hr => ?_⟩
    · simp only [Function.update_self] at ht ⊢
      rw [href, hcount, hex ht]
    · rw [hcount] at hc
      exact absurd hc (Nat.lt_irrefl 0)
    · exact absurd hr (List.nodup_cons.1 hnd).1
  · exact (hI.page q).of_eq (by simp [hq]) rfl rfl Or.inl
      (fun hr => by rw [hfree]; exact List.mem_cons_of_mem _ hr)

/-- A page that is neither anonymous nor free may take references. -/
theorem VmInvOn.setRefCount_other (hI : VmInvOn tables S fresh extra) {p : Nat} (n : Nat)
    (htag : (S.pages p).debugTag ≠ pageTagAnon) (hfree : p ∉ S.free) :
    VmInvOn tables (S.setRefCount p n) fresh extra where
  shape := hI.shape
  page := fun q => by
    by_cases hq : q = p
    · subst hq
      refine ⟨fun ht => absurd (by simpa using ht) htag, fun ht => absurd (by simpa using ht) htag,
        fun hc => absurd (by simpa using (hI.page q).mapped hc) htag,
        fun hr => absurd hr hfree⟩
    · exact (hI.page q).of_eq (setRefCount_pages_of_ne S n hq) rfl rfl id id
  freeNodup := hI.freeNodup

/-- Finding or allocating the second-level table keeps the invariant: a table page is not
anonymous, and the first-level entries only fill in. -/
theorem VmInvOn.archVmLookup (hI : VmInvOn tables S fresh extra) {alloc b : Bool}
    (h : Argentum.Mm.archVmLookup S pgtab va alloc = some (S', b)) :
    VmInvOn tables S' fresh extra ∧ S'.pte = S.pte ∧
      (∀ t i, S.l1 t i = true → S'.l1 t i = true) ∧
      (b = true → S'.l1 pgtab (l1Idx va) = true) ∧
      ∀ q, (S.pages q).debugTag = pageTagAnon → S'.pages q = S.pages q ∧ S'.mem q = S.mem q := by
  obtain ⟨-, hcases⟩ := archVmLookup_inv h
  rcases hcases with ⟨hl1, -, rfl⟩ | ⟨-, -, rfl, rfl⟩ | ⟨-, -, -, S₁, tp, halloc, rfl⟩
  · exact ⟨hI, rfl, fun _ _ h => h, fun _ => hl1, fun _ _ => ⟨rfl, rfl⟩⟩
  · exact ⟨hI, rfl, fun _ _ h => h, fun h => absurd h Bool.false_ne_true, fun _ _ => ⟨rfl, rfl⟩⟩
  · obtain ⟨hI₁, hpte, hl1, htag, -, hother, hnotfree, hwasfree⟩ :=
      hI.pageAllocOne halloc fun h => absurd h pageTagPgtab_ne_anon
    have htp : (S₁.pages tp).debugTag ≠ pageTagAnon := htag ▸ pageTagPgtab_ne_anon
    -- the table page is tagged `PAGE_TAG_PGTAB`: it leaves `fresh` at once
    have hI₂ : VmInvOn tables S₁ fresh extra :=
      hI₁.mono_fresh fun q hq hfr => hfr.elim Or.inr fun hqt => absurd (hqt ▸ hq) htp
    have hI₃ := hI₂.setRefCount_other ((S₁.pages tp).refCount + 1) htp hnotfree
    have hgrow : ∀ t i, (S₁.setRefCount tp ((S₁.pages tp).refCount + 1)).l1 t i = true →
        Function.update S₁.l1 pgtab (Function.update (Function.update (S₁.l1 pgtab)
          (l1Idx va / 2 * 2) true) (l1Idx va / 2 * 2 + 1) true) t i = true := by
      intro t i hti
      rw [setRefCount_l1] at hti
      rw [fillL1_apply, hti, Bool.true_or]
    refine ⟨hI₃.grow_l1 hgrow, hpte, fun t i hti => hgrow t i (by simpa [hl1] using hti),
      fun _ => ?_, fun q hq => ?_⟩
    · simp only [fillL1_apply, beq_self_eq_true, Bool.true_and, Bool.or_eq_true, beq_iff_eq]
      omega
    · -- the table page was free, so it is not `q`
      have hqt : q ≠ tp := fun hqt => (hI.page q).not_free hq (hqt ▸ hwasfree)
      obtain ⟨rest, -, -, -, rfl⟩ := pageAllocOne_inv halloc
      simp [Function.update_of_ne hqt]

/-- Taking a reference of an anonymous page, ahead of the entry that will hold it. -/
theorem VmInvOn.incRef (hI : VmInvOn tables S fresh extra) {p : Nat}
    (htag : (S.pages p).debugTag = pageTagAnon) :
    VmInvOn tables (S.setRefCount p ((S.pages p).refCount + 1)) fresh
      (Function.update extra p (extra p + 1)) where
  shape := hI.shape
  page := fun q => by
    by_cases hq : q = p
    · subst hq
      have hc := (hI.page q).counts htag
      refine ⟨fun _ => ?_, fun _ => Or.inl (by simp), fun _ => by simpa using htag,
        fun hr => absurd hr ((hI.page q).not_free htag)⟩
      simp only [setRefCount_refCount_self, Function.update_self, setRefCount_pte]
      omega
    · exact (hI.page q).of_eq (setRefCount_pages_of_ne S _ hq) rfl
        (Function.update_of_ne hq _ _) id id
  freeNodup := hI.freeNodup

/-- Clearing the entry at `va` that maps `e.addr`, after dropping its reference: the page
goes back to the allocator exactly when that was its last mapping and it had no allowance. -/
theorem VmInvOn.unmap (hI : VmInvOn tables S fresh extra) {e : Pte} {S₂ : VmState}
    (he : S.pageEntry pgtab va = some e) (hdrop : Argentum.Mm.pageDropRef S e.addr = some S₂) :
    VmInvOn tables (S₂.setPte pgtab (va / pageSize) none) fresh extra ∧ S₂.l1 = S.l1 ∧
      S₂.mem = S.mem ∧ ∀ q, 0 < extra q → (S₂.pages q).debugTag = (S.pages q).debugTag := by
  obtain ⟨htag, hpos, href⟩ := hI.mapped_ref he
  have hslot := hI.slot_of_pageEntry he
  have hnotfree := (hI.page e.addr).not_free htag
  -- dropping a reference leaves the entries, the tables and the bytes as they are
  have hframe : S₂.pte = S.pte ∧ S₂.l1 = S.l1 ∧ S₂.mem = S.mem := by
    rcases pageDropRef_inv hdrop with ⟨-, rfl⟩ | ⟨-, rfl⟩ <;> exact ⟨rfl, rfl, rfl⟩
  have hpte : (S₂.setPte pgtab (va / pageSize) none).pte =
      (S.setPte pgtab (va / pageSize) none).pte := by
    simp only [setPte_pte, hframe.1]
  -- the count of `e.addr` drops by one, every other count stays
  have hcount : ∀ q, mapCount tables (S₂.setPte pgtab (va / pageSize) none).pte q +
      (if q = e.addr then 1 else 0) = mapCount tables S.pte q := fun q => by
    have h := mapCount_setPte (S := S) hslot none q
    simp only [entryMaps_iff_of_pageEntry he, entryMaps_none, Bool.false_eq_true, ↓reduceIte,
      Nat.add_zero] at h
    rw [hpte]
    exact h
  have hshape : TablesOk tables (S₂.setPte pgtab (va / pageSize) none).pte
      (S₂.setPte pgtab (va / pageSize) none).l1 := by
    rw [hpte, setPte_l1, hframe.2.1]
    exact hI.shape.setPte_none _ _
  refine ⟨⟨hshape, fun q => ?_, ?_⟩, hframe.2.1, hframe.2.2, fun q hq => ?_⟩
  · have hc := hcount q
    by_cases hq : q = e.addr
    · subst hq
      simp only [if_true] at hc
      rcases pageDropRef_inv hdrop with ⟨hne, rfl⟩ | ⟨hz, rfl⟩
      · -- other references remain: only the reference count moves
        refine ⟨fun _ => ?_, fun _ => Or.inl ?_, fun _ => by simpa using htag,
          fun hr => absurd hr hnotfree⟩
        all_goals simp only [setPte_pages, setRefCount_refCount_self]; omega
      · -- the last reference: the page goes back, untagged
        exact PageOk.freed (by simp) (by omega)
    · simp only [hq, if_false, Nat.add_zero] at hc
      refine (hI.page q).of_eq ?_ hc rfl id fun hr => ?_
      · rcases pageDropRef_inv hdrop with ⟨-, rfl⟩ | ⟨-, rfl⟩
        · simp [Function.update_of_ne hq]
        · simp [Function.update_of_ne hq]
      · rcases pageDropRef_inv hdrop with ⟨-, rfl⟩ | ⟨-, rfl⟩
        · exact hr
        · exact (List.mem_cons.1 hr).resolve_left hq
  · rcases pageDropRef_inv hdrop with ⟨-, rfl⟩ | ⟨-, rfl⟩
    · exact hI.freeNodup
    · exact List.nodup_cons.2 ⟨hnotfree, hI.freeNodup⟩
  · rcases pageDropRef_inv hdrop with ⟨-, rfl⟩ | ⟨hz, rfl⟩
    · exact setRefCount_debugTag S _ _ q
    · -- a page with an allowance keeps a reference, so it is not the one freed
      have hq' : q ≠ e.addr := by
        rintro rfl
        omega
      simp [Function.update_of_ne hq']

/-- Filling the empty slot at `va` with a mapping of an anonymous page whose reference was
taken ahead: the allowance goes into the count. -/
theorem VmInvOn.map (hI : VmInvOn tables S fresh extra) {p : Nat} (flags : VmFlags)
    (ht : pgtab ∈ tables) (hva : va < virtKernelBase) (hl1 : S.l1 pgtab (l1Idx va) = true)
    (hnone : S.pageEntry pgtab va = none) (htag : (S.pages p).debugTag = pageTagAnon)
    (hex : 0 < extra p) (honly : MappedOnlyAt S.pte p (va / pageSize)) :
    VmInvOn tables (S.setPte pgtab (va / pageSize) (some ⟨p, { flags with page := true }⟩))
      fresh (Function.update extra p (extra p - 1)) where
  shape := hI.shape.setPte_some flags (mem_userSlots ht hva)
    (by rw [l1Idx_div_mul]; exact hl1) honly
  page := fun q => by
    have h := mapCount_setPte (S := S) (mem_userSlots ht hva)
      (some ⟨p, { flags with page := true }⟩) q
    simp only [not_entryMaps_of_pageEntry hnone, entryMaps_some_iff, Bool.false_eq_true,
      ↓reduceIte, Nat.add_zero] at h
    by_cases hq : q = p
    · subst hq
      simp only [if_true] at h
      refine (hI.page q).shift ?_ fun _ => htag
      rw [Function.update_self]
      omega
    · simp only [hq, if_false, Nat.add_zero] at h
      exact (hI.page q).of_eq rfl h (Function.update_of_ne hq _ _) id id
  freeNodup := hI.freeNodup

/-- `vm_page_remove` keeps the invariant and leaves no mapping at `va`. -/
theorem VmInvOn.vmPageRemove (hI : VmInvOn tables S fresh extra)
    (h : Argentum.Mm.vmPageRemove S pgtab va = some S') :
    VmInvOn tables S' fresh extra ∧ S'.l1 = S.l1 ∧ S'.pageEntry pgtab va = none ∧
      S'.mem = S.mem ∧ (∀ q, 0 < extra q → (S'.pages q).debugTag = (S.pages q).debugTag) ∧
      ∀ t w e, S'.pte t w = some e → S.pte t w = some e := by
  obtain ⟨-, ⟨hnone, rfl⟩ | ⟨e, S₂, -, he, -, hdrop, rfl⟩⟩ := vmPageRemove_inv h
  · exact ⟨hI, rfl, hnone.elim hI.pageEntry_of_l1 id, rfl, fun _ _ => rfl, fun _ _ _ h => h⟩
  · obtain ⟨hI', hl1, hmem, htag⟩ := hI.unmap he hdrop
    have hpte : S₂.pte = S.pte := by
      rcases pageDropRef_inv hdrop with ⟨-, rfl⟩ | ⟨-, rfl⟩ <;> rfl
    refine ⟨hI', hl1, pageEntry_setPte_none S₂ pgtab va, hmem, htag, fun t w e' he' => ?_⟩
    rw [← hpte]
    exact setPte_none_sub S₂ _ _ he'

/-- `vm_page_insert` of an anonymous page into a table of the run keeps the invariant and
maps the page at `va`: the reference it takes first keeps a re-inserted page alive through
the removal of its old mapping. -/
theorem VmInvOn.vmPageInsert (hI : VmInvOn tables S fresh extra) {p : Nat} {flags : VmFlags}
    {r : Int} (ht : pgtab ∈ tables) (htag : (S.pages p).debugTag = pageTagAnon)
    (honly : MappedOnlyAt S.pte p (va / pageSize))
    (h : Argentum.Mm.vmPageInsert S pgtab p va flags = some (S', r)) :
    VmInvOn tables S' fresh extra ∧ r = 0 ∧
      S'.pageEntry pgtab va = some ⟨p, { flags with page := true }⟩ := by
  obtain ⟨rfl, S₁, S₃, hlook, hrem, rfl⟩ := vmPageInsert_inv h
  obtain ⟨hva, -⟩ := archVmLookup_inv hlook
  obtain ⟨hI₁, hpte₁, -, hl1, hanon⟩ := hI.archVmLookup hlook
  have htag₁ : (S₁.pages p).debugTag = pageTagAnon := by rw [(hanon p htag).1]; exact htag
  -- the reference is taken first, as an allowance of one
  have hex : 0 < Function.update extra p (extra p + 1) p := by simp
  obtain ⟨hI₃, hl1₃, hnone, -, htag₃, hsub⟩ := (hI₁.incRef htag₁).vmPageRemove hrem
  have htag₃' : (S₃.pages p).debugTag = pageTagAnon := by
    rw [htag₃ p hex, setRefCount_debugTag]
    exact htag₁
  -- the old mapping at `va` is gone; the page is mapped nowhere else
  have honly₃ : MappedOnlyAt S₃.pte p (va / pageSize) := by
    refine honly.mono fun t w e he => ?_
    rw [← hpte₁]
    exact hsub t w e he
  have hI₄ := hI₃.map flags ht hva (by rw [hl1₃, setRefCount_l1]; exact hl1 rfl) hnone htag₃' hex
    honly₃
  have hextra : Function.update (Function.update extra p (extra p + 1)) p
      (Function.update extra p (extra p + 1) p - 1) = extra := by
    simp
  rw [hextra] at hI₄
  exact ⟨hI₄, rfl, pageEntry_setPte_page S₃ pgtab va p flags⟩

/-- A page taken fresh and mapped since is referenced: the allowance for it can go. -/
theorem VmInvOn.settle {p : Nat} {e : Pte}
    (hI : VmInvOn tables S (fun q => False ∨ q = p) fun _ => 0)
    (he : S.pageEntry pgtab va = some e) (hp : e.addr = p) : VmInv tables S := by
  obtain ⟨-, hpos, href⟩ := hI.mapped_ref he
  refine hI.mono_fresh fun q _ hfr => hfr.elim (fun hf => hf.elim) fun hq => Or.inl ?_
  subst hq hp
  rw [href]
  exact hpos

end Primitives


/-! ## Calls between which the invariant holds -/

section Calls

/-- `vm_page_cow` on the page mapped at `va`: in place, the page is re-inserted; on a copy,
the fresh copy is mapped and the shared page loses the reference of `va`. -/
theorem VmInv.vmPageCow (hI : VmInv tables S) (ht : pgtab ∈ tables) {e : Pte}
    {flags : VmFlags} {res : Option Nat} (he : S.pageEntry pgtab va = some e)
    (h : Argentum.Mm.vmPageCow S pgtab va e.addr flags = some (S', res)) : VmInv tables S' := by
  unfold Argentum.Mm.vmPageCow at h
  split at h
  · contradiction
  · dsimp only at h
    split at h
    · -- one reference: the mapping at `va` is the only one
      split at h
      · contradiction
      · rename_i S₁ r hins
        obtain ⟨rfl, -⟩ := Prod.mk.inj (Option.some.inj h)
        exact (hI.vmPageInsert ht (hI.mapped_ref he).1 (hI.onlyAt he) hins).1
    · split at h
      · contradiction
      · rename_i S₁ copy halloc
        obtain ⟨hI₁, -, -, hctag, -⟩ := hI.pageAllocOne halloc fun _ => rfl
        have hI₂ := hI₁.setMem (Function.update S₁.mem copy (S₁.mem e.addr))
        split at h
        · contradiction
        · rename_i S₃ r hins
          obtain ⟨hI₃, rfl, hentry⟩ :=
            hI₂.vmPageInsert ht hctag (hI.onlyAt_of_alloc halloc _) hins
          simp only [Int.lt_irrefl, if_false, Option.some.injEq, Prod.mk.injEq] at h
          obtain ⟨rfl, -⟩ := h
          exact hI₃.settle hentry rfl

/-- `vm_page_lookup_cow` keeps the invariant. -/
theorem VmInv.vmPageLookupCow (hI : VmInv tables S) (ht : pgtab ∈ tables)
    {res : Except Int (Nat × VmFlags)}
    (h : Argentum.Mm.vmPageLookupCow S pgtab va = some (S', res)) : VmInv tables S' := by
  unfold Argentum.Mm.vmPageLookupCow at h
  split at h
  · contradiction
  · cases h
    exact hI
  · rename_i page flags hlook
    obtain ⟨-, ⟨hres, -⟩ | ⟨e, -, he, -, hres⟩⟩ := vmPageLookup_inv hlook
    · contradiction
    · obtain ⟨rfl, rfl⟩ := Prod.mk.inj (Option.some.inj hres)
      split at h
      · split at h
        · contradiction
        · rename_i S₁ hcow
          cases h
          exact hI.vmPageCow ht he hcow
        · rename_i S₁ copy hcow
          cases h
          exact hI.vmPageCow ht he hcow
      · cases h
        exact hI

/-- The write loop of `vm_copy_out` and `vm_clear` keeps the invariant: it only looks pages
up, copying them on write, and stores bytes. -/
theorem VmInv.vmWriteLoop (hI : VmInv tables S) (ht : pgtab ∈ tables) {f : Nat → UInt8}
    {p dstVa n : Nat} {r : Int} (h : Argentum.Mm.vmWriteLoop S pgtab f p dstVa n = some (S', r)) :
    VmInv tables S' := by
  fun_induction Argentum.Mm.vmWriteLoop S pgtab f p dstVa n with
  | case1 S p dstVa =>
    cases h
    exact hI
  | case2 => contradiction
  | case3 S p dstVa n hn S₁ r' hlook =>
    cases h
    exact hI.vmPageLookupCow ht hlook
  | case4 S p dstVa n hn offset ncopy S₁ page fl hlook ih =>
    exact ih ((hI.vmPageLookupCow ht hlook).setMem _) h

/-- The loop of `vm_user_free` keeps the invariant. -/
theorem VmInv.vmUserFreeLoop (hI : VmInv tables S) {endVa : Nat}
    (h : Argentum.Mm.vmUserFreeLoop S pgtab va endVa = some S') : VmInv tables S' := by
  fun_induction Argentum.Mm.vmUserFreeLoop S pgtab va endVa with
  | case1 => contradiction
  | case2 S va hlt S₁ hrem ih => exact ih (hI.vmPageRemove hrem).1 h
  | case3 =>
    cases h
    exact hI

theorem VmInv.vmUserFree (hI : VmInv tables S) {n : Nat}
    (h : Argentum.Mm.vmUserFree S pgtab va n = some S') : VmInv tables S' := by
  unfold Argentum.Mm.vmUserFree at h
  dsimp only at h
  split at h
  · contradiction
  · exact hI.vmUserFreeLoop h

/-- The loop of `vm_user_alloc` keeps the invariant: each fresh page is mapped at once. -/
theorem VmInv.vmUserAllocLoop (hI : VmInv tables S) (ht : pgtab ∈ tables)
    {startVa endVa : Nat} {flags : VmFlags} {r : Int}
    (h : Argentum.Mm.vmUserAllocLoop S pgtab startVa va endVa flags = some (S', r)) :
    VmInv tables S' := by
  fun_induction Argentum.Mm.vmUserAllocLoop S pgtab startVa va endVa flags with
  | case1 | case2 | case3 => contradiction
  | case4 S va hlt S₁ page halloc S₂ r' hins hr =>
    -- `vm_page_insert` does not fail: the page allocator panics first
    obtain ⟨hI₁, -, -, htag, -⟩ := hI.pageAllocOne halloc fun _ => rfl
    exact absurd (hI₁.vmPageInsert ht htag (hI.onlyAt_of_alloc halloc _) hins).2.1 hr
  | case5 S va hlt S₁ page halloc S₂ r' hins hr ih =>
    obtain ⟨hI₁, -, -, htag, -⟩ := hI.pageAllocOne halloc fun _ => rfl
    obtain ⟨hI₂, -, hentry⟩ := hI₁.vmPageInsert ht htag (hI.onlyAt_of_alloc halloc _) hins
    exact ih (hI₂.settle hentry rfl) h
  | case6 =>
    cases h
    exact hI

theorem VmInv.vmUserAlloc (hI : VmInv tables S) (ht : pgtab ∈ tables) {n : Nat}
    {flags : VmFlags} {r : Int} (h : Argentum.Mm.vmUserAlloc S pgtab va n flags = some (S', r)) :
    VmInv tables S' := by
  unfold Argentum.Mm.vmUserAlloc at h
  dsimp only at h
  split at h
  · contradiction
  · exact hI.vmUserAllocLoop ht h

/-- Without `share`, `vm_user_clone` finds the page mapped at `va` of `src`, having
re-inserted a writable one copy-on-write. -/
theorem VmInv.vmUserCloneLookup (hI : VmInv tables S) {src : Nat} (hs : src ∈ tables)
    {S₁ : VmState} {res : Except Int (Nat × VmFlags)}
    (h : Argentum.Mm.vmUserCloneLookup S src va false = some (S₁, res)) :
    VmInv tables S₁ ∧
      ∀ page fl, res = .ok (page, fl) → ∃ e, S₁.pageEntry src va = some e ∧ e.addr = page := by
  unfold Argentum.Mm.vmUserCloneLookup at h
  simp only [Bool.false_eq_true, ↓reduceIte] at h
  split at h
  · contradiction
  · cases h
    exact ⟨hI, fun _ _ h => by cases h⟩
  · rename_i page flags hlook
    obtain ⟨-, ⟨hres, -⟩ | ⟨e, -, he, -, hres⟩⟩ := vmPageLookup_inv hlook
    · contradiction
    obtain ⟨rfl, rfl⟩ := Prod.mk.inj (Option.some.inj hres)
    split at h
    · split at h
      · contradiction
      · rename_i S₂ r hins
        obtain ⟨hI₂, rfl, hentry⟩ := hI.vmPageInsert hs (hI.mapped_ref he).1 (hI.onlyAt he) hins
        simp only [Int.lt_irrefl, if_false, Option.some.injEq, Prod.mk.injEq] at h
        obtain ⟨rfl, rfl⟩ := h
        exact ⟨hI₂, fun page fl hpf => by cases hpf; exact ⟨_, hentry, rfl⟩⟩
    · cases h
      exact ⟨hI, fun page fl hpf => by cases hpf; exact ⟨e, he, rfl⟩⟩

/-- One page of `vm_user_clone` without `share` keeps the invariant. -/
theorem VmInv.vmUserClonePage (hI : VmInv tables S) {src dst : Nat} (hs : src ∈ tables)
    (hd : dst ∈ tables) {r : Int}
    (h : Argentum.Mm.vmUserClonePage S src dst va false = some (S', r)) : VmInv tables S' := by
  unfold Argentum.Mm.vmUserClonePage at h
  split at h
  · contradiction
  · rename_i S₁ r' hfound
    cases h
    exact (hI.vmUserCloneLookup hs hfound).1
  · rename_i S₁ page flags hfound
    obtain ⟨hI₁, hfound⟩ := hI.vmUserCloneLookup hs hfound
    obtain ⟨e, he, rfl⟩ := hfound page flags rfl
    -- the page keeps its virtual address in `dst`
    exact (hI₁.vmPageInsert hd (hI₁.mapped_ref he).1 (hI₁.onlyAt he) h).1

theorem VmInv.vmUserCloneLoop (hI : VmInv tables S) {src dst endVa : Nat} (hs : src ∈ tables)
    (hd : dst ∈ tables) {r : Int}
    (h : Argentum.Mm.vmUserCloneLoop S src dst va endVa false = some (S', r)) :
    VmInv tables S' := by
  fun_induction Argentum.Mm.vmUserCloneLoop S src dst va endVa false with
  | case1 => contradiction
  | case2 S va hlt S₁ r' hpage hr =>
    cases h
    exact hI.vmUserClonePage hs hd hpage
  | case3 S va hlt S₁ r' hpage hr ih => exact ih (hI.vmUserClonePage hs hd hpage) h
  | case4 =>
    cases h
    exact hI

theorem VmInv.vmUserClone (hI : VmInv tables S) {src dst n : Nat} (hs : src ∈ tables)
    (hd : dst ∈ tables) {r : Int}
    (h : Argentum.Mm.vmUserClone S src dst va n false = some (S', r)) : VmInv tables S' := by
  unfold Argentum.Mm.vmUserClone at h
  dsimp only at h
  split at h
  · contradiction
  · exact hI.vmUserCloneLoop hs hd h

theorem VmInv.vmUserCheckBufLoop (hI : VmInv tables S) (ht : pgtab ∈ tables)
    {endVa : Nat} {flags : VmFlags} {r : Int}
    (h : Argentum.Mm.vmUserCheckBufLoop S pgtab va endVa flags = some (S', r)) :
    VmInv tables S' := by
  fun_induction Argentum.Mm.vmUserCheckBufLoop S pgtab va endVa flags with
  | case1 => contradiction
  | case2 S va hlt S₁ r' hlook =>
    cases h
    exact hI.vmPageLookupCow ht hlook
  | case3 S va hlt S₁ page curr hlook hcheck =>
    cases h
    exact hI.vmPageLookupCow ht hlook
  | case4 S va hlt S₁ page curr hlook hcheck ih => exact ih (hI.vmPageLookupCow ht hlook) h
  | case5 =>
    cases h
    exact hI

theorem VmInv.vmUserCheckBuf (hI : VmInv tables S) (ht : pgtab ∈ tables) {n : Nat}
    {flags : VmFlags} {r : Int}
    (h : Argentum.Mm.vmUserCheckBuf S pgtab va n flags = some (S', r)) : VmInv tables S' := by
  unfold Argentum.Mm.vmUserCheckBuf at h
  dsimp only at h
  split at h
  · cases h
    exact hI
  · exact hI.vmUserCheckBufLoop ht h

theorem VmInv.vmHandleFault (hI : VmInv tables S) (ht : pgtab ∈ tables) {r : Int}
    (h : Argentum.Mm.vmHandleFault S pgtab va = some (S', r)) : VmInv tables S' := by
  unfold Argentum.Mm.vmHandleFault at h
  split at h
  · cases h
    exact hI
  split at h
  · contradiction
  · cases h
    exact hI
  · rename_i page flags hlook
    obtain ⟨-, ⟨hres, -⟩ | ⟨e, -, he, -, hres⟩⟩ := vmPageLookup_inv hlook
    · contradiction
    obtain ⟨rfl, rfl⟩ := Prod.mk.inj (Option.some.inj hres)
    split at h
    · cases h
      exact hI
    split at h
    · contradiction
    · rename_i S₁ hcow
      cases h
      exact hI.vmPageCow ht he hcow
    · rename_i S₁ copy hcow
      cases h
      exact hI.vmPageCow ht he hcow

theorem VmInv.vmCopyOut (hI : VmInv tables S) (ht : pgtab ∈ tables) {src : Nat → UInt8}
    {n : Nat} {r : Int} (h : Argentum.Mm.vmCopyOut S pgtab src va n = some (S', r)) :
    VmInv tables S' := by
  unfold Argentum.Mm.vmCopyOut at h
  split at h
  · contradiction
  · exact hI.vmWriteLoop ht h

theorem VmInv.vmClear (hI : VmInv tables S) (ht : pgtab ∈ tables) {n : Nat} {r : Int}
    (h : Argentum.Mm.vmClear S pgtab va n = some (S', r)) : VmInv tables S' := by
  unfold Argentum.Mm.vmClear at h
  split at h
  · contradiction
  · exact hI.vmWriteLoop ht h

end Calls

/-! ## Runs -/

/-- Every call keeps the invariant. -/
theorem VmInv.step (hI : VmInv tables S) (h : VmStep tables S S') : VmInv tables S' := by
  cases h with
  | alloc pgtab va n flags ht h => exact hI.vmUserAlloc ht h
  | free pgtab va n ht h => exact hI.vmUserFree h
  | clone src dst va n hs hd h => exact hI.vmUserClone hs hd h
  | fault pgtab va ht h => exact hI.vmHandleFault ht h
  | copyOut pgtab src va n ht h => exact hI.vmCopyOut ht h
  | clear pgtab va n ht h => exact hI.vmClear ht h
  | checkBuf pgtab va n flags ht h => exact hI.vmUserCheckBuf ht h

/-- At boot nothing is mapped and the free pages are clean. -/
theorem VmInv.boot {free : List Nat} (hfree : free.Nodup) : VmInv tables (vmBoot free) where
  shape := ⟨fun _ _ h => absurd rfl h, fun _ _ _ h => (nomatch h), fun _ _ _ h => (nomatch h)⟩
  page := fun p => by
    have hc : mapCount tables (vmBoot free).pte p = 0 := by
      simp [mapCount, vmBoot, entryMaps]
    exact PageOk.freed ⟨rfl, rfl⟩ hc
  freeNodup := hfree

theorem VmReachable.inv {free : List Nat} (hfree : free.Nodup) (h : VmReachable tables free S) :
    VmInv tables S := by
  induction h with
  | boot => exact VmInv.boot hfree
  | step _ hs ih => exact ih.step hs

end Argentum.Mm
