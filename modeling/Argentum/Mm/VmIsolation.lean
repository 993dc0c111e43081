import Argentum.Mm.VmFrame

/-!
# Argentum.Mm.VmIsolation

Copy-on-write isolation after `vm_user_clone(src, dst, start, n, 0)`.

The clone maps each page of the region of `src` at the same address of `dst`. A writable page
becomes read-only and copy-on-write in both tables; a page that is already copy-on-write is
shared as it is. A page that is neither is shared as it is too: a read-only page stays shared
and not copy-on-write. `vm_copy_out` and `vm_clear` write through a mapping without looking
at `VM_WRITE`, so a write through `src` to such a page shows in `dst`.

When every page of the region is writable or copy-on-write at clone time, the region is
`Isolated` afterwards: each of its entries in `src` and `dst` is read-only copy-on-write, or
maps a page no other entry maps. Writes keep that, since copying on write leaves the slot
written through with a page of its own. A write then changes only the bytes it covers, read
through the table it goes through.
-/

namespace Argentum.Mm

variable {tables : Finset Nat} {S S' : VmState} {src dst va : Nat}

theorem pte_flags_page (e : Pte) (h : e.flags.page = true) :
    (⟨e.addr, { e.flags with page := true }⟩ : Pte) = e := by
  obtain ⟨addr, ⟨r, w, x, nc, u, c, pg⟩⟩ := e
  simp only at h
  subst h
  rfl

theorem setPte_pte_of_eq {t v : Nat} {e : Option Pte} (h : S.pte t v = e) :
    (S.setPte t v e).pte = S.pte := by
  rw [setPte_pte, ← h, Function.update_eq_self, Function.update_eq_self]

theorem div_pageSize_eq_iff {a : Nat} (hva : va % pageSize = 0) :
    a / pageSize = va / pageSize ↔ va ≤ a ∧ a < va + pageSize := by
  unfold pageSize at *
  omega

/-! ## Cloning -/

/-- Without `share`, `vm_user_clone` finds the page at `va` of `src` and the flags to map it
with: for a writable page, the flags without `VM_WRITE` and with `VM_COW`, which `src` then
maps it with too; otherwise the flags it has. -/
theorem VmInv.vmUserCloneLookup_frame (hI : VmInv tables S) {S₁ : VmState}
    {res : Except Int (Nat × VmFlags)}
    (h : Argentum.Mm.vmUserCloneLookup S src va false = some (S₁, res)) :
    (∃ r, res = .error r ∧ r < 0) ∨
    ∃ e fl, S.pageEntry src va = some e ∧ res = .ok (e.addr, fl) ∧
      (e.flags.write = true → fl.cow = true ∧ fl.write = false) ∧
      (e.flags.write = false → fl = e.flags) ∧
      S₁.pte = (S.setPte src (va / pageSize) (some ⟨e.addr, { fl with page := true }⟩)).pte ∧
      ∀ q, q ∉ S.free → S₁.mem q = S.mem q := by
  unfold Argentum.Mm.vmUserCloneLookup at h
  simp only [Bool.false_eq_true, ↓reduceIte] at h
  split at h
  · contradiction
  · cases h
    exact Or.inl ⟨_, rfl, by decide⟩
  · rename_i page flags hlook
    obtain ⟨-, ⟨hres, -⟩ | ⟨e, -, he, -, hres⟩⟩ := vmPageLookup_inv hlook
    · contradiction
    obtain ⟨rfl, rfl⟩ := Prod.mk.inj (Option.some.inj hres)
    right
    split at h
    · -- writable: re-inserted in `src` read-only and copy-on-write
      rename_i hwrite
      split at h
      · contradiction
      · rename_i S₂ r hins
        obtain ⟨hpte, hmem⟩ := vmPageInsert_frame hins
        obtain ⟨rfl, -⟩ := vmPageInsert_inv hins
        simp only [Int.lt_irrefl, if_false, Option.some.injEq, Prod.mk.injEq] at h
        obtain ⟨rfl, rfl⟩ := h
        exact ⟨e, _, he, rfl, fun _ => ⟨rfl, rfl⟩, fun hw => absurd hwrite (by simp [hw]),
          hpte, hmem⟩
    · -- otherwise `src` keeps its entry
      rename_i hwrite
      cases h
      have hx := pte_of_pageEntry he
      refine ⟨e, e.flags, he, rfl, fun hw => absurd hw (by simpa using hwrite), fun _ => rfl, ?_,
        fun _ _ => rfl⟩
      rw [pte_flags_page e (hI.shape.flagged _ _ e hx)]
      exact (setPte_pte_of_eq hx).symm

/-- One page of `vm_user_clone` without `share`, of a writable or copy-on-write page: `src`
and `dst` then map the page at `va` read-only and copy-on-write, reading the bytes `src`
read, and no other entry or byte that a user reads changes. -/
theorem VmInv.vmUserClonePage_frame (hI : VmInv tables S) (hs : src ∈ tables)
    (hne : src ≠ dst)
    (hw : ∀ e, S.pageEntry src va = some e → e.flags.write = true ∨ e.flags.cow = true)
    {r : Int} (h : Argentum.Mm.vmUserClonePage S src dst va false = some (S', r))
    (hr : ¬ r < 0) :
    (∀ u a, (u ≠ src ∧ u ≠ dst) ∨ a / pageSize ≠ va / pageSize →
      S'.pte u (a / pageSize) = S.pte u (a / pageSize) ∧ S'.userByte u a = S.userByte u a) ∧
    ∀ a, a / pageSize = va / pageSize → ∀ u, u = src ∨ u = dst →
      (∃ e, S'.pte u (a / pageSize) = some e ∧ e.flags.cow = true ∧ e.flags.write = false) ∧
      S'.userByte u a = S.userByte src a := by
  unfold Argentum.Mm.vmUserClonePage at h
  split at h
  · contradiction
  · -- the page was not found: the clone fails
    rename_i S₁ r' hfound
    cases h
    rcases hI.vmUserCloneLookup_frame hfound with ⟨r'', hres, hneg⟩ | ⟨e, fl, -, hres, -⟩
    · cases hres
      exact absurd hneg hr
    · cases hres
  · rename_i S₁ page fl hfound
    have hI₁ := (hI.vmUserCloneLookup hs hfound).1
    rcases hI.vmUserCloneLookup_frame hfound with ⟨_, hres, -⟩ |
      ⟨e, fl', he, hres, hwr, hro, hpte₁, hmem₁⟩
    · cases hres
    cases hres
    obtain ⟨hpte₂, hmem₂⟩ := vmPageInsert_frame h
    have hfl : fl.cow = true ∧ fl.write = false := by
      cases hwe : e.flags.write
      · rw [hro hwe]
        exact ⟨(hw e he).resolve_left (by simp [hwe]), hwe⟩
      · exact hwr hwe
    -- the page at `va` is mapped, so not free, before and after `src` is re-inserted
    have hx₁ : S₁.pte src (va / pageSize) = some ⟨e.addr, { fl with page := true }⟩ := by
      rw [hpte₁, setPte_pte_self]
    have hnf := hI.not_free_of_pte (pte_of_pageEntry he)
    have hnf₁ := hI₁.not_free_of_pte hx₁
    refine ⟨fun u a hua => ?_, fun a ha u hu => ?_⟩
    · -- another slot: its entry, and the bytes of its page, stay through both inserts
      have h₁ : (u, a / pageSize) ≠ (src, va / pageSize) := fun hx => by
        obtain ⟨rfl, hv⟩ := Prod.mk.inj hx
        exact hua.elim (fun h => h.1 rfl) fun h => h hv
      have h₂ : (u, a / pageSize) ≠ (dst, va / pageSize) := fun hx => by
        obtain ⟨rfl, hv⟩ := Prod.mk.inj hx
        exact hua.elim (fun h => h.2 rfl) fun h => h hv
      have hp₁ : S₁.pte u (a / pageSize) = S.pte u (a / pageSize) := by
        rw [hpte₁, setPte_pte_of_ne _ _ h₁]
      have hp₂ : S'.pte u (a / pageSize) = S₁.pte u (a / pageSize) := by
        rw [hpte₂, setPte_pte_of_ne _ _ h₂]
      exact ⟨hp₂.trans hp₁,
        (hI₁.userByte_of_frame hp₂ hmem₂).trans (hI.userByte_of_frame hp₁ hmem₁)⟩
    · -- `src` and `dst` both map the page `src` mapped, whose bytes stay
      have hsrc : S'.pte src (a / pageSize) = some ⟨e.addr, { fl with page := true }⟩ := by
        have hx : (src, a / pageSize) ≠ (dst, va / pageSize) := fun hx =>
          hne (Prod.mk.inj hx).1
        rw [hpte₂, setPte_pte_of_ne _ _ hx, ha, hx₁]
      have hdst : S'.pte dst (a / pageSize) = some ⟨e.addr, { fl with page := true }⟩ := by
        rw [hpte₂, ha, setPte_pte_self]
      have hbyte : S.userByte src a = some (S'.mem e.addr (a % pageSize)) := by
        rw [hmem₂ _ hnf₁, hmem₁ _ hnf]
        exact userByte_of_pageEntry (by rw [pageEntry_div ha]; exact he)
      rcases hu with rfl | rfl
      · exact ⟨⟨_, hsrc, hfl⟩, by rw [userByte_of_pte rfl hsrc, hbyte]⟩
      · exact ⟨⟨_, hdst, hfl⟩, by rw [userByte_of_pte rfl hdst, hbyte]⟩

/-- The loop of `vm_user_clone` without `share`, over page-aligned addresses whose pages are
writable or copy-on-write: each page of `[va, endVa)` is then mapped read-only and
copy-on-write in `src` and `dst`, reading the bytes `src` read, and no other entry or byte
that a user reads changes. -/
theorem VmInv.vmUserCloneLoop_frame (hI : VmInv tables S) (hs : src ∈ tables)
    (hd : dst ∈ tables) (hne : src ≠ dst) {endVa : Nat} (hva : va % pageSize = 0)
    (hend : endVa % pageSize = 0)
    (hw : ∀ a e, va ≤ a → a < endVa → S.pageEntry src a = some e →
      e.flags.write = true ∨ e.flags.cow = true)
    (h : Argentum.Mm.vmUserCloneLoop S src dst va endVa false = some (S', 0)) :
    VmInv tables S' ∧
    (∀ u a, (u ≠ src ∧ u ≠ dst) ∨ a < va ∨ endVa ≤ a →
      S'.pte u (a / pageSize) = S.pte u (a / pageSize) ∧ S'.userByte u a = S.userByte u a) ∧
    ∀ a, va ≤ a → a < endVa → ∀ u, u = src ∨ u = dst →
      (∃ e, S'.pte u (a / pageSize) = some e ∧ e.flags.cow = true ∧ e.flags.write = false) ∧
      S'.userByte u a = S.userByte src a := by
  fun_induction Argentum.Mm.vmUserCloneLoop S src dst va endVa false with
  | case1 => contradiction
  | case2 S va hlt S₁ r hpage hr =>
    -- a page failed: the clone returns its error, not `0`
    obtain ⟨-, rfl⟩ := Prod.mk.inj (Option.some.inj h)
    exact absurd hr (Int.lt_irrefl 0)
  | case3 S va hlt S₁ r hpage hr ih =>
    -- both ends are page-aligned, so the page at `va` lies below `endVa`
    have hstep : va + pageSize ≤ endVa := by
      unfold pageSize at *
      omega
    obtain ⟨hframe₁, hproc₁⟩ := hI.vmUserClonePage_frame hs hne
      (fun e he => hw va e (Nat.le_refl va) hlt he) hpage hr
    -- the pages after `va` are as they were
    have hw₁ : ∀ a e, va + pageSize ≤ a → a < endVa → S₁.pageEntry src a = some e →
        e.flags.write = true ∨ e.flags.cow = true := by
      intro a e ha ha' he
      have hne' : a / pageSize ≠ va / pageSize := fun h =>
        absurd ((div_pageSize_eq_iff hva).1 h).2 (by omega)
      rw [pageEntry_congr (hframe₁ src a (Or.inr hne')).1] at he
      exact hw a e (by omega) ha' he
    obtain ⟨hI', hframe', hproc'⟩ := ih (hI.vmUserClonePage hs hd hpage)
      (by rw [Nat.add_mod_right]; exact hva) hw₁ h
    refine ⟨hI', fun u a hua => ?_, fun a ha ha' u hu => ?_⟩
    · -- outside the region neither the page at `va` nor the rest changed it
      have hne' : (u ≠ src ∧ u ≠ dst) ∨ a / pageSize ≠ va / pageSize :=
        hua.imp_right fun h hdiv => by
          have := (div_pageSize_eq_iff hva).1 hdiv
          omega
      obtain ⟨hp, hb⟩ := hframe' u a (hua.imp_right fun h => h.imp_left fun h => by omega)
      obtain ⟨hp₁, hb₁⟩ := hframe₁ u a hne'
      exact ⟨hp.trans hp₁, hb.trans hb₁⟩
    · by_cases hlo : a < va + pageSize
      · -- the page at `va`, which the rest of the loop leaves
        have hdiv := (div_pageSize_eq_iff hva).2 ⟨ha, hlo⟩
        obtain ⟨⟨e, he, hfl⟩, hb₁⟩ := hproc₁ a hdiv u hu
        obtain ⟨hp, hb⟩ := hframe' u a (Or.inr (Or.inl hlo))
        exact ⟨⟨e, hp.trans he, hfl⟩, hb.trans hb₁⟩
      · -- a later page, which `src` read as before
        have hne' : a / pageSize ≠ va / pageSize := fun h =>
          hlo ((div_pageSize_eq_iff hva).1 h).2
        obtain ⟨hpte, hb⟩ := hproc' a (by omega) ha' u hu
        exact ⟨hpte, hb.trans (hframe₁ src a (Or.inr hne')).2⟩
  | case4 S va hge =>
    cases h
    refine ⟨hI, fun _ _ _ => ⟨rfl, rfl⟩, fun a ha ha' => ?_⟩
    omega

/-! ## Writes -/

/-- Within the tables `T` and the virtual pages `V`, every entry is a read-only
copy-on-write mapping or maps a page that no other entry maps. -/
def Isolated (T V : Set Nat) (S : VmState) : Prop :=
  ∀ t ∈ T, ∀ v ∈ V, ∀ e, S.pte t v = some e →
    (e.flags.cow = true ∧ e.flags.write = false) ∨ MappedOnlyBy S.pte e.addr t v

section Writes

variable {T V : Set Nat}

/-- Copying on write keeps a region isolated: the slot copied maps a page of its own, and the
page it mapped before is no page that an entry of the region maps alone. -/
theorem Isolated.cowStep (hiso : Isolated T V S) (hI : VmInv tables S) {t v p : Nat} {e : Pte}
    (hx : S.pte t v = some e) (hc : CowStep S S' t v e.addr p) : Isolated T V S' := by
  obtain ⟨fl, -, -, -, hpte⟩ := hc.pte
  intro u hu w hw e' he'
  by_cases hy : (u, w) = (t, v)
  · obtain ⟨rfl, rfl⟩ := Prod.mk.inj hy
    rw [hpte, setPte_pte_self] at he'
    cases he'
    exact Or.inr hc.only
  · have hold : S.pte u w = some e' := by rwa [hpte, setPte_pte_of_ne _ _ hy] at he'
    refine (hiso u hu w hw e' hold).imp_right fun honly u' w' e'' h'' hadd => ?_
    by_cases hz : (u', w') = (t, v)
    · -- the slot copied maps `p`: the old page, which `(u, w)` did not map alone, or a
      -- page that was free
      exfalso
      obtain ⟨rfl, rfl⟩ := Prod.mk.inj hz
      rw [hpte, setPte_pte_self] at h''
      cases h''
      rcases hc.fresh with hp | hp
      · exact hy (honly u' w' e hx (hp.symm.trans hadd)).symm
      · exact hI.not_free_of_pte hold (hadd ▸ hp)
    · rw [hpte, setPte_pte_of_ne _ _ hz] at h''
      exact honly u' w' e'' h'' hadd

/-- Storing to the page mapped at `va` of a table of `T`, at offsets `va % PAGE_SIZE` to
`va % PAGE_SIZE + k`, through a mapping that is not read-only copy-on-write, changes in the
region only the bytes that table reads at `[va, va + k)`. -/
theorem Isolated.store (hiso : Isolated T V S) (hI : VmInv tables S) {t k : Nat} {e : Pte}
    (ht : t ∈ T) (he : S.pageEntry t va = some e)
    (hw : ¬(e.flags.cow = true ∧ e.flags.write = false)) {m : Nat → UInt8}
    (hm : ∀ o, ¬(va % pageSize ≤ o ∧ o < va % pageSize + k) → m o = S.mem e.addr o)
    {u a : Nat} (ha : a / pageSize ∈ V) (hcov : ¬(u = t ∧ va ≤ a ∧ a < va + k)) :
    ({ S with mem := Function.update S.mem e.addr m } : VmState).userByte u a =
      S.userByte u a := by
  refine userByte_congr rfl fun e' he' => ?_
  by_cases hq : e'.addr = e.addr
  · have hx := pte_of_pageEntry he
    have hx' := pte_of_pageEntry he'
    -- `a` reads the page stored to, so through the slot stored through
    have hslot : (u, a / pageSize) = (t, va / pageSize) := by
      by_cases hv : va / pageSize ∈ V
      · rcases hiso t ht _ hv e hx with hro | honly
        · exact absurd hro hw
        · exact honly u _ e' hx' hq
      · have hdiv := hI.shape.sameVpn t _ e hx u _ e' hx' hq
        rw [hdiv] at ha
        exact absurd ha hv
    obtain ⟨rfl, hdiv⟩ := Prod.mk.inj hslot
    simp only [hq, Function.update_self]
    refine hm _ fun ho => hcov ⟨rfl, ?_⟩
    unfold pageSize at *
    omega
  · simp [Function.update_of_ne hq]

/-- `vm_page_lookup_cow` keeps a region isolated, and finds a page mapped at `va` without
`VM_COW`. -/
theorem Isolated.vmPageLookupCow (hiso : Isolated T V S) (hI : VmInv tables S) {t : Nat}
    {res : Except Int (Nat × VmFlags)}
    (h : Argentum.Mm.vmPageLookupCow S t va = some (S', res)) :
    Isolated T V S' ∧ ∀ page fl, res = .ok (page, fl) →
      ∃ e, S'.pageEntry t va = some e ∧ e.addr = page ∧ e.flags.cow = false := by
  rcases hI.vmPageLookupCow_frame h with ⟨rfl, hfound⟩ | ⟨e, p, he, hc, hres⟩
  · exact ⟨hiso, hfound⟩
  · refine ⟨hiso.cowStep hI (pte_of_pageEntry he) hc, fun page fl hpf => ?_⟩
    rw [hres page fl hpf]
    exact hc.pageEntry rfl

/-- The write loop of `vm_copy_out` and `vm_clear` through a table of `T` keeps a region
isolated, and changes in it only the bytes that table reads at the addresses written. -/
theorem Isolated.vmWriteLoop (hiso : Isolated T V S) (hI : VmInv tables S) {t : Nat}
    (ht : t ∈ T) (htt : t ∈ tables) {f : Nat → UInt8} {p dstVa n : Nat} {r : Int}
    (h : Argentum.Mm.vmWriteLoop S t f p dstVa n = some (S', r)) :
    Isolated T V S' ∧ ∀ u a, a / pageSize ∈ V →
      ¬(u = t ∧ dstVa ≤ a ∧ a < dstVa + n) → S'.userByte u a = S.userByte u a := by
  fun_induction Argentum.Mm.vmWriteLoop S t f p dstVa n with
  | case1 =>
    cases h
    exact ⟨hiso, fun _ _ _ _ => rfl⟩
  | case2 => contradiction
  | case3 S p dstVa n hn S₁ r' hlook =>
    cases h
    exact ⟨(hiso.vmPageLookupCow hI hlook).1, fun u a _ _ => hI.vmPageLookupCow_userByte hlook u a⟩
  | case4 S p dstVa n hn offset ncopy S₁ page fl hlook ih =>
    obtain ⟨hiso₁, hfound⟩ := hiso.vmPageLookupCow hI hlook
    obtain ⟨e, he, rfl, hcow⟩ := hfound page fl rfl
    have hI₁ := hI.vmPageLookupCow htt hlook
    have hn' : ncopy ≤ n := Nat.min_le_right _ _
    obtain ⟨hiso', hbytes'⟩ := ih hiso₁ (hI₁.setMem _) h
    refine ⟨hiso', fun u a ha hcov => ?_⟩
    -- the chunk stored to this page, then the rest of the loop
    have hstore := hiso₁.store hI₁ ht he (fun h => by simp [hcow] at h) (k := ncopy)
      (m := writeChunk (S₁.mem e.addr) offset ncopy fun i => f (p + i))
      (fun o ho => by unfold writeChunk; exact if_neg ho) ha
      fun hu => by obtain ⟨hut, h₁, h₂⟩ := hu; exact hcov ⟨hut, h₁, by omega⟩
    rw [hbytes' u a ha fun hu => by
        obtain ⟨hut, h₁, h₂⟩ := hu; exact hcov ⟨hut, by omega, by omega⟩, hstore,
      hI.vmPageLookupCow_userByte hlook u a]

/-- `vm_handle_fault` leaves the state, or copies the mapping at `va` on write. -/
theorem VmInv.vmHandleFault_frame (hI : VmInv tables S) {t : Nat} {r : Int}
    (h : Argentum.Mm.vmHandleFault S t va = some (S', r)) :
    S' = S ∨ ∃ e p, S.pageEntry t va = some e ∧ CowStep S S' t (va / pageSize) e.addr p := by
  unfold Argentum.Mm.vmHandleFault at h
  split at h
  · cases h
    exact Or.inl rfl
  split at h
  · contradiction
  · cases h
    exact Or.inl rfl
  · rename_i page flags hlook
    obtain ⟨-, ⟨hres, -⟩ | ⟨e, -, he, -, hres⟩⟩ := vmPageLookup_inv hlook
    · contradiction
    obtain ⟨rfl, rfl⟩ := Prod.mk.inj (Option.some.inj hres)
    split at h
    · cases h
      exact Or.inl rfl
    split at h
    · contradiction
    · rename_i S₁ hcow
      cases h
      obtain ⟨p, -, hc⟩ := hI.vmPageCow_frame he hcow
      exact Or.inr ⟨e, p, he, hc⟩
    · rename_i S₁ copy hcow
      cases h
      obtain ⟨p, -, hc⟩ := hI.vmPageCow_frame he hcow
      exact Or.inr ⟨e, p, he, hc⟩

/-- A store by user code goes through a writable entry, to its page. -/
theorem mmuStore_inv {t : Nat} {b : UInt8} (h : mmuStore S t va b = some S') :
    ∃ e, S.pte t (va / pageSize) = some e ∧ e.flags.write = true ∧
      S' = { S with
        mem := Function.update S.mem e.addr
          (Function.update (S.mem e.addr) (va % pageSize) b) } := by
  unfold mmuStore at h
  split at h
  · rename_i e he
    split at h
    · rename_i hwu
      cases h
      exact ⟨e, he, (Bool.and_eq_true_iff.1 hwu).1, rfl⟩
    · contradiction
  · contradiction

end Writes

/-! ## Runs of writes -/

/-- A write call: the table it goes through, and the addresses `[va, va + n)` it may store
to. -/
structure WriteRange where
  pgtab : Nat
  va : Nat
  n : Nat
  deriving DecidableEq, Repr

/-- Whether a write may store to address `a` through table `t`. -/
def WriteRange.Covers (w : WriteRange) (t a : Nat) : Prop :=
  t = w.pgtab ∧ w.va ≤ a ∧ a < w.va + w.n

instance (w : WriteRange) (t a : Nat) : Decidable (w.Covers t a) :=
  inferInstanceAs (Decidable (_ ∧ _ ∧ _))

/-- The calls of an interleaving of writes through the tables of `T`, each with what it may
store to: `vm_copy_out`, `vm_clear`, `vm_handle_fault`, and a store by user code. -/
inductive WriteStep (T : Set Nat) : VmState → WriteRange → VmState → Prop
  | copyOut {S S' : VmState} {r : Int} (t : Nat) (ht : t ∈ T) (src : Nat → UInt8) (va n : Nat)
      (h : vmCopyOut S t src va n = some (S', r)) : WriteStep T S ⟨t, va, n⟩ S'
  | clear {S S' : VmState} {r : Int} (t : Nat) (ht : t ∈ T) (va n : Nat)
      (h : vmClear S t va n = some (S', r)) : WriteStep T S ⟨t, va, n⟩ S'
  | fault {S S' : VmState} {r : Int} (t : Nat) (ht : t ∈ T) (va : Nat)
      (h : vmHandleFault S t va = some (S', r)) : WriteStep T S ⟨t, va, 0⟩ S'
  | store {S S' : VmState} (t : Nat) (ht : t ∈ T) (va : Nat) (b : UInt8)
      (h : mmuStore S t va b = some S') : WriteStep T S ⟨t, va, 1⟩ S'

/-- A run of writes, with what each may store to. -/
inductive WriteRun (T : Set Nat) : VmState → List WriteRange → VmState → Prop
  | nil (S : VmState) : WriteRun T S [] S
  | cons {S S₁ S₂ : VmState} {w : WriteRange} {ws : List WriteRange} :
      WriteStep T S w S₁ → WriteRun T S₁ ws S₂ → WriteRun T S (w :: ws) S₂

section Runs

variable {T V : Set Nat}

/-- Each write keeps a region isolated and the invariant, and changes in the region only the
bytes it covers, read through the table it goes through. -/
theorem Isolated.writeStep (hiso : Isolated T V S) (hI : VmInv tables S)
    (hT : ∀ t ∈ T, t ∈ tables) {w : WriteRange} (h : WriteStep T S w S') :
    Isolated T V S' ∧ VmInv tables S' ∧ ∀ u a, a / pageSize ∈ V → ¬ w.Covers u a →
      S'.userByte u a = S.userByte u a := by
  cases h with
  | copyOut t ht src va n h =>
    have hloop := h
    unfold Argentum.Mm.vmCopyOut at hloop
    split at hloop
    · contradiction
    · obtain ⟨hiso', hb⟩ := hiso.vmWriteLoop hI ht (hT t ht) hloop
      exact ⟨hiso', hI.vmCopyOut (hT t ht) h, hb⟩
  | clear t ht va n h =>
    have hloop := h
    unfold Argentum.Mm.vmClear at hloop
    split at hloop
    · contradiction
    · obtain ⟨hiso', hb⟩ := hiso.vmWriteLoop hI ht (hT t ht) hloop
      exact ⟨hiso', hI.vmClear (hT t ht) h, hb⟩
  | fault t ht va h =>
    have hI' := hI.vmHandleFault (hT t ht) h
    rcases hI.vmHandleFault_frame h with rfl | ⟨e, p, he, hc⟩
    · exact ⟨hiso, hI', fun _ _ _ _ => rfl⟩
    · have hx := pte_of_pageEntry he
      exact ⟨hiso.cowStep hI hx hc, hI', fun u a _ _ => hc.userByte hI hx u a⟩
  | store t ht va b h =>
    obtain ⟨e, hx, hw, rfl⟩ := mmuStore_inv h
    refine ⟨hiso, hI.setMem _, fun u a ha hcov => ?_⟩
    exact hiso.store hI ht (hI.pageEntry_of_pte hx) (fun h => by simp [hw] at h) (k := 1)
      (fun o ho => Function.update_of_ne (by omega) _ _) ha hcov

/-- A run of writes keeps a region isolated and the invariant, and a byte of the region that
no write covers reads the same. -/
theorem Isolated.writeRun (hiso : Isolated T V S) (hI : VmInv tables S)
    (hT : ∀ t ∈ T, t ∈ tables) {ws : List WriteRange} (h : WriteRun T S ws S') :
    Isolated T V S' ∧ VmInv tables S' ∧ ∀ u a, a / pageSize ∈ V →
      (∀ w ∈ ws, ¬ w.Covers u a) → S'.userByte u a = S.userByte u a := by
  induction h with
  | nil => exact ⟨hiso, hI, fun _ _ _ _ => rfl⟩
  | cons hstep _ ih =>
    obtain ⟨hiso₁, hI₁, hb₁⟩ := hiso.writeStep hI hT hstep
    obtain ⟨hiso', hI', hb'⟩ := ih hiso₁ hI₁
    refine ⟨hiso', hI', fun u a ha hno => ?_⟩
    rw [hb' u a ha fun w hw => hno w (List.mem_cons_of_mem _ hw),
      hb₁ u a ha (hno _ List.mem_cons_self)]

end Runs

/-! ## Reading back -/

/-- Below the kernel, `vm_page_lookup` finds what the entry at `va` maps. -/
theorem VmInv.vmPageLookup_eq (hI : VmInv tables S) {t : Nat} (hva : va < virtKernelBase) :
    vmPageLookup S t va = some ((S.pageEntry t va).map fun e => (e.addr, e.flags)) := by
  unfold vmPageLookup archVmLookup
  rw [if_neg (Nat.not_le.2 hva)]
  cases hl : S.l1 t (l1Idx va)
  · simp [hI.pageEntry_of_l1 hl]
  · simp only [if_true]
    cases he : S.pageEntry t va with
    | none => rfl
    | some e =>
      -- a mapped page is anonymous and referenced, as `page_assert` checks
      obtain ⟨htag, hpos, href⟩ := hI.mapped_ref he
      simp [pageAssert, htag, href, Nat.pos_iff_ne_zero.1 hpos]

/-- Below the kernel, `vm_copy_in` of one byte reads the byte a user reads, or fails with
`-EFAULT` where nothing is mapped. -/
theorem VmInv.vmCopyIn_one (hI : VmInv tables S) {t a : Nat} (ha : a < virtKernelBase) :
    vmCopyIn S t a 1 =
      some (match S.userByte t a with
        | some b => .ok [b]
        | none => .error (-eFault)) := by
  have hassert : vmUserAssert a ((a + 1) % 2 ^ 32) = true := by
    unfold vmUserAssert virtKernelBase at *
    simp only [Bool.and_eq_true, decide_eq_true_eq]
    omega
  have hone : min (pageSize - a % pageSize) 1 = 1 := by
    unfold pageSize
    omega
  unfold vmCopyIn
  rw [hassert, vmCopyInLoop, hI.vmPageLookup_eq ha]
  unfold VmState.userByte
  cases he : S.pageEntry t a with
  | none => rfl
  | some e =>
    simp only [Bool.not_true, Bool.false_eq_true, if_false, Nat.one_ne_zero, Option.map_some,
      hone, Nat.sub_self]
    rw [vmCopyInLoop]
    simp [Except.map]

/-! ## Isolation after a clone -/

theorem userEnd_mod (start n : Nat) : userEnd start n % pageSize = 0 := by
  unfold userEnd roundDown
  exact Nat.sub_mod_eq_zero_of_mod_eq (Nat.mod_mod _ _).symm

theorem cow_isolation {free : List Nat} (hfree : free.Nodup) {S₀ S₁ S₂ : VmState}
    (h₀ : VmReachable tables free S₀) {start n : Nat} {ws : List WriteRange}
    (hs : src ∈ tables) (hd : dst ∈ tables) (hne : src ≠ dst)
    (hclone : vmUserClone S₀ src dst start n false = some (S₁, 0))
    (hw : ∀ a e, start ≤ a → a < userEnd start n → S₀.pageEntry src a = some e →
      e.flags.write = true ∨ e.flags.cow = true)
    (hrun : WriteRun {src, dst} S₁ ws S₂) {t a : Nat} (ht : t = src ∨ t = dst)
    (ha : start ≤ a) (ha' : a < userEnd start n) (hno : ∀ w ∈ ws, ¬ w.Covers t a) :
    vmCopyIn S₂ t a 1 = vmCopyIn S₀ src a 1 := by
  have hI₀ := h₀.inv hfree
  unfold vmUserClone at hclone
  dsimp only at hclone
  split at hclone
  · cases hclone
  rename_i hassert
  have hstart : start % pageSize = 0 := by
    simp only [vmUserAssertPages, Bool.not_eq_true', Bool.and_eq_false_iff, beq_eq_false_iff_ne,
      ne_eq, decide_eq_false_iff_not, not_lt, not_le] at hassert
    omega
  have hend := userEnd_mod start n
  -- the clone: each page of the region read-only copy-on-write in both tables, and read as
  -- `src` read it
  obtain ⟨hI₁, -, hproc⟩ := hI₀.vmUserCloneLoop_frame hs hd hne hstart hend hw hclone
  have hiso : Isolated {src, dst} (Set.Ico (start / pageSize) (userEnd start n / pageSize)) S₁ := by
    intro u hu v hv e he
    have hva : start ≤ v * pageSize ∧ v * pageSize < userEnd start n := by
      rw [Set.mem_Ico] at hv
      unfold pageSize at *
      omega
    obtain ⟨⟨e', he', hfl⟩, -⟩ := hproc (v * pageSize) hva.1 hva.2 u hu
    rw [Nat.mul_div_cancel _ (by decide), he] at he'
    cases he'
    exact Or.inl hfl
  have hT : ∀ u ∈ ({src, dst} : Set Nat), u ∈ tables := by
    rintro u (rfl | rfl)
    · exact hs
    · exact hd
  obtain ⟨-, hI₂, hb⟩ := hiso.writeRun hI₁ hT hrun
  have hdiv : a / pageSize ∈ Set.Ico (start / pageSize) (userEnd start n / pageSize) := by
    rw [Set.mem_Ico]
    unfold pageSize at *
    omega
  -- the clone mapped `a`, so it lies below the kernel
  have hva : a < virtKernelBase := by
    obtain ⟨⟨e, he, -⟩, -⟩ := hproc a ha ha' src (Or.inl rfl)
    have := (hI₁.shape.slots src _ (by rw [he]; exact Option.some_ne_none e)).1
    rw [userSlots, Finset.mem_product, Finset.mem_range] at this
    unfold userPages virtKernelBase pageSize at *
    omega
  rw [hI₂.vmCopyIn_one hva, hI₀.vmCopyIn_one hva, hb t a hdiv hno, (hproc a ha ha' t ht).2]

/-- From boot, a writable page mapped at 0 of table 0 and cloned into table 1: after one byte
is written through table 0 with `vm_copy_out`, table 1 still reads what table 0 read at clone
time. -/
theorem cow_isolation_fork :
    ∃ S₀ S₁ S₂ : VmState, VmReachable {0, 1} [5, 6, 7, 8] S₀ ∧
      vmUserClone S₀ 0 1 0 4096 false = some (S₁, 0) ∧
      WriteRun {0, 1} S₁ [⟨0, 0, 1⟩] S₂ ∧
      vmCopyIn S₂ 1 0 1 = vmCopyIn S₀ 0 0 1 := by
  -- the states of the run, as the calls compute them: a writable page at 0 of table 0,
  -- cloned into table 1, then a byte written through table 0
  set S₀ := ((vmUserAlloc (vmBoot [5, 6, 7, 8]) 0 0 4096
    ⟨true, true, false, false, true, false, false⟩).getD (vmBoot [], 0)).1
  set S₁ := ((vmUserClone S₀ 0 1 0 4096 false).getD (vmBoot [], 0)).1
  set S₂ := ((vmCopyOut S₁ 0 (fun _ => 1) 0 1).getD (vmBoot [], 0)).1
  have hal : vmUserAlloc (vmBoot [5, 6, 7, 8]) 0 0 4096
      ⟨true, true, false, false, true, false, false⟩ = some (S₀, 0) := by
    simp [S₀, vmUserAlloc, userEnd, vmUserAssertPages, roundDown, pageSize, vmUserAllocLoop,
      pageAllocOne, vmBoot, pageAllocBlockTag, vmPageInsert, archVmLookup, virtKernelBase, l1Idx,
      vmPageRemove, VmState.pageEntry, VmState.setRefCount, VmState.setPte, pageTagAnon,
      pageTagPgtab]
  have hclone : vmUserClone S₀ 0 1 0 4096 false = some (S₁, 0) := by
    simp [S₁, S₀, vmUserAlloc, vmUserClone, userEnd, vmUserAssertPages, roundDown, pageSize,
      vmUserAllocLoop, vmUserCloneLoop, pageAllocOne, vmBoot, pageAllocBlockTag, vmPageInsert,
      archVmLookup, virtKernelBase, l1Idx, vmPageRemove, VmState.pageEntry, VmState.setRefCount,
      VmState.setPte, vmUserClonePage, vmUserCloneLookup, vmPageLookup, pageAssert, pageTagAnon,
      pageTagPgtab, pageDropRef]
  have hout : vmCopyOut S₁ 0 (fun _ => 1) 0 1 = some (S₂, 0) := by
    simp [S₂, S₁, S₀, vmUserAlloc, vmUserClone, vmCopyOut, userEnd, vmUserAssertPages,
      vmUserAssert, roundDown, pageSize, vmUserAllocLoop, vmUserCloneLoop, vmWriteLoop,
      pageAllocOne, vmBoot, pageAllocBlockTag, vmPageInsert, archVmLookup, virtKernelBase, l1Idx,
      vmPageRemove, VmState.pageEntry, VmState.setRefCount, VmState.setPte, vmUserClonePage,
      vmUserCloneLookup, vmPageLookup, vmPageLookupCow, vmPageCow, pageAssert, pageTagAnon,
      pageTagPgtab, pageDropRef]
  have hreach : VmReachable {0, 1} [5, 6, 7, 8] S₀ :=
    .step .boot (.alloc 0 0 4096 _ (by simp) hal)
  have hrun : WriteRun {0, 1} S₁ [⟨0, 0, 1⟩] S₂ :=
    .cons (.copyOut 0 (by simp) _ 0 1 hout) (.nil S₂)
  -- the page under the region is writable in table 0 when it is cloned
  have hw : ∀ a e, 0 ≤ a → a < userEnd 0 4096 → S₀.pageEntry 0 a = some e →
      e.flags.write = true ∨ e.flags.cow = true := by
    intro a e _ ha he
    have ha0 : a / 4096 = 0 :=
      Nat.div_eq_of_lt (by simpa [userEnd, roundDown, pageSize] using ha)
    simp [S₀, VmState.pageEntry, ha0, vmUserAlloc, userEnd, vmUserAssertPages, roundDown,
      pageSize, vmUserAllocLoop, pageAllocOne, vmBoot, pageAllocBlockTag, vmPageInsert,
      archVmLookup, virtKernelBase, l1Idx, vmPageRemove, VmState.setRefCount, VmState.setPte,
      pageTagAnon, pageTagPgtab] at he
    subst he
    exact Or.inl rfl
  exact ⟨S₀, S₁, S₂, hreach, hclone, hrun, cow_isolation (by decide) hreach (by simp) (by simp)
    (by decide) hclone hw hrun (Or.inr rfl) (Nat.zero_le 0)
    (by simp [userEnd, roundDown, pageSize]) (by simp [WriteRange.Covers])⟩

/-- From boot, a read-only page mapped at 0 of table 0 and cloned into table 1 stays shared:
one byte written through table 0 with `vm_copy_out` shows in table 1, which read 0 there at
clone time. Every call returns 0. -/
theorem cow_isolation_read_only :
    ((vmUserAlloc (vmBoot [5, 6, 7, 8]) 0 0 4096
        { read := true, write := false, exec := false, nocache := false, user := true,
          cow := false, page := false }).bind fun x =>
      (vmUserClone x.1 0 1 0 4096 false).bind fun y =>
        (vmCopyOut y.1 0 (fun _ => 1) 0 1).bind fun z =>
          some (x.2, y.2, z.2, vmCopyIn y.1 1 0 1, vmCopyIn z.1 1 0 1)) =
      some (0, 0, 0, some (.ok [0]), some (.ok [1])) := by
  simp [vmUserAlloc, vmUserClone, vmCopyOut, vmCopyIn, userEnd, vmUserAssertPages, vmUserAssert,
    roundDown, pageSize, vmUserAllocLoop, vmUserCloneLoop, vmWriteLoop, vmCopyInLoop,
    pageAllocOne, vmBoot, pageAllocBlockTag, vmPageInsert, archVmLookup, virtKernelBase, l1Idx,
    vmPageRemove, VmState.pageEntry, VmState.setRefCount, VmState.setPte, vmUserClonePage,
    vmUserCloneLookup, vmPageLookup, vmPageLookupCow, pageAssert, writeChunk, pageTagAnon,
    pageTagPgtab, Except.map]

/-! ## Shared clones

With `share`, `vm_user_clone` resolves copy-on-write in `src` with `vm_page_lookup_cow`, and
maps the page in `dst` with the flags that call hands back: those found before the copy,
`VM_COW` included and `VM_WRITE` not. A page that was copy-on-write is then writable in `src`
and still copy-on-write in `dst`, and the first write through `dst` copies it. -/

/-- `vm_page_lookup_cow` fails with a negative code. -/
theorem vmPageLookupCow_error {t : Nat} {S₁ : VmState} {r : Int}
    (h : vmPageLookupCow S t va = some (S₁, .error r)) : r < 0 := by
  unfold vmPageLookupCow at h
  split at h
  · contradiction
  · cases h
    decide
  · split at h
    · split at h
      · contradiction
      · cases h
        decide
      · cases h
    · cases h

/-- `vm_page_lookup_cow` hands back the flags it found, also when it copied the page. -/
theorem vmPageLookupCow_flags {t p : Nat} {S₁ : VmState} {fl : VmFlags}
    (h : vmPageLookupCow S t va = some (S₁, .ok (p, fl))) :
    ∃ e, S.pageEntry t va = some e ∧ fl = e.flags := by
  unfold vmPageLookupCow at h
  split at h
  · contradiction
  · cases h
  · rename_i page flags hlook
    obtain ⟨-, ⟨hnone, -⟩ | ⟨e, -, he, -, hres⟩⟩ := vmPageLookup_inv hlook
    · cases hnone
    · obtain ⟨rfl, rfl⟩ := Prod.mk.inj (Option.some.inj hres)
      refine ⟨e, he, ?_⟩
      -- the copy on write changes the page handed back, never the flags
      split at h
      · split at h
        · contradiction
        · cases h
        · cases h
          rfl
      · cases h
        rfl

/-- A shared clone of one page maps it in `dst` with the flags `src` mapped it with before. -/
theorem vmUserClonePage_share_flags {r : Int}
    (h : vmUserClonePage S src dst va true = some (S', r)) (hr : 0 ≤ r) :
    ∃ e p, S.pageEntry src va = some e ∧
      S'.pte dst (va / pageSize) = some ⟨p, { e.flags with page := true }⟩ := by
  unfold vmUserClonePage vmUserCloneLookup at h
  simp only [↓reduceIte] at h
  split at h
  · contradiction
  · rename_i S₁ r' hlook
    cases h
    exact absurd hr (not_le.2 (vmPageLookupCow_error hlook))
  · rename_i S₁ p fl hlook
    obtain ⟨e, he, rfl⟩ := vmPageLookupCow_flags hlook
    refine ⟨e, p, he, ?_⟩
    rw [(vmPageInsert_frame h).1, setPte_pte_self]

/-- From boot, a writable page at 0 of table 0 is cloned into table 1 for a fork, and then
shared with table 2. Table 0 now maps a copy, page 8, writable; table 2 maps page 8 read-only
and copy-on-write. A byte written through table 2 with `vm_copy_out` goes to a copy of its
own, and table 0 still reads 0 there. Every call returns 0. -/
theorem shared_clone_keeps_cow :
    ((vmUserAlloc (vmBoot [5, 6, 7, 8, 9, 10]) 0 0 4096
        ⟨true, true, false, false, true, false, false⟩).bind fun x =>
      (vmUserClone x.1 0 1 0 4096 false).bind fun y =>
        (vmUserClone y.1 0 2 0 4096 true).bind fun z =>
          (vmCopyOut z.1 2 (fun _ => 1) 0 1).bind fun w =>
            some (x.2, y.2, z.2, (z.1.pte 0 0).map (fun e => (e.addr, e.flags.write, e.flags.cow)),
              (z.1.pte 2 0).map (fun e => (e.addr, e.flags.write, e.flags.cow)), w.2,
              vmCopyIn w.1 0 0 1, vmCopyIn w.1 2 0 1)) =
      some (0, 0, 0, some (8, true, false), some (8, false, true), 0, some (.ok [0]),
        some (.ok [1])) := by
  simp [vmUserAlloc, vmUserClone, vmCopyOut, vmCopyIn, userEnd, vmUserAssertPages, vmUserAssert,
    roundDown, pageSize, vmUserAllocLoop, vmUserCloneLoop, vmWriteLoop, vmCopyInLoop,
    pageAllocOne, vmBoot, pageAllocBlockTag, vmPageInsert, archVmLookup, virtKernelBase, l1Idx,
    vmPageRemove, VmState.pageEntry, VmState.setRefCount, VmState.setPte, vmUserClonePage,
    vmUserCloneLookup, vmPageLookup, vmPageLookupCow, vmPageCow, pageAssert, writeChunk,
    pageTagAnon, pageTagPgtab, Except.map, pageDropRef, pageFreeOne]

end Argentum.Mm
