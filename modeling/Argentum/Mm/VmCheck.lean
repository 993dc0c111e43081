import Argentum.Mm.VmIsolation

/-!
# Argentum.Mm.VmCheck

`vm_user_check_buf(pgtab, start_va, n, flags)` of `kernel/mm/vm.c`, which the system calls use
on a buffer a process passes them. It rounds `start_va + n` up to a page boundary, `end_va`,
refuses a `start_va` at or above `VIRT_KERNEL_BASE` and an `end_va` that wrapped, and then looks
up every page from `start_va` to `end_va` with `vm_page_lookup_cow`.

Nothing checks that `end_va` stays below `VIRT_KERNEL_BASE`. A buffer that starts in the last
user page and runs past `VIRT_KERNEL_BASE` passes the first page when it is mapped, and the
second lookup is of a kernel address, where `arch_vm_lookup` stops in
`k_panic("user va %p must be below VIRT_KERNEL_BASE")` (`check_buf_crossing_panics`). And an
empty buffer at an address inside a page is checked against that page
(`vmUserCheckBuf_empty`).
-/

namespace Argentum.Mm

variable {tables : Finset Nat} {S : VmState}

/-! ## The end of the range -/

/-- Without a wrap, `end_va` is at or past `start_va + n`, and less than a page past it. -/
theorem userEnd_bounds {startVa n : Nat} (h : startVa + n + pageSize ≤ 2 ^ 32) :
    startVa + n ≤ userEnd startVa n ∧ userEnd startVa n < startVa + n + pageSize := by
  unfold userEnd roundDown
  have hps : 0 < pageSize := by decide
  rw [Nat.mod_eq_of_lt (by omega), Nat.mod_eq_of_lt (by omega)]
  have := Nat.mod_lt (startVa + n + pageSize - 1) hps
  have := Nat.mod_le (startVa + n + pageSize - 1) pageSize
  constructor
  · -- rounding down takes off less than a page
    have hdiv := Nat.div_add_mod (startVa + n + pageSize - 1) pageSize
    omega
  · omega

/-! ## The loop -/

/-- A page of the loop at or above `VIRT_KERNEL_BASE` is a kernel address for
`arch_vm_lookup`, which panics. -/
theorem vmUserCheckBufLoop_kernel {t va endVa : Nat} {flags : VmFlags}
    (hva : virtKernelBase ≤ va) (hend : va < endVa) :
    vmUserCheckBufLoop S t va endVa flags = none := by
  have hlookup : vmPageLookupCow S t va = none := by
    unfold vmPageLookupCow vmPageLookup archVmLookup
    rw [if_pos hva]
  rw [vmUserCheckBufLoop, if_pos hend, hlookup]

/-- A mapped page that is not copy-on-write and has the flags asked for passes, and the loop
goes on at the next page. -/
theorem vmUserCheckBufLoop_mapped (hI : VmInv tables S) {t va endVa : Nat} {e : Pte}
    {flags : VmFlags} (he : S.pageEntry t va = some e) (hcow : e.flags.cow = false)
    (hflags : vmFlagsCheck e.flags flags = true) (hva : va < virtKernelBase)
    (hend : va < endVa) :
    vmUserCheckBufLoop S t va endVa flags =
      vmUserCheckBufLoop S t (va + pageSize) endVa flags := by
  have hlookup : vmPageLookupCow S t va = some (S, .ok (e.addr, e.flags)) := by
    unfold vmPageLookupCow
    rw [hI.vmPageLookup_eq hva, he]
    simp [hcow]
  rw [vmUserCheckBufLoop, if_pos hend, hlookup]
  simp [hflags]

/-- An empty buffer at an address inside a page that is not mapped: `end_va` rounds up to the
end of the page, which is looked up, and the check fails where there is nothing to check. -/
theorem vmUserCheckBuf_empty (hI : VmInv tables S) {t va : Nat} (flags : VmFlags)
    (hva : va < virtKernelBase) (halign : va % pageSize ≠ 0) (hpage : S.pageEntry t va = none) :
    vmUserCheckBuf S t va 0 flags = some (S, -eFault) := by
  have hb : va + 0 ≤ userEnd va 0 ∧ userEnd va 0 < va + 0 + pageSize :=
    userEnd_bounds (by unfold virtKernelBase pageSize at *; omega)
  have hm := userEnd_mod va 0
  unfold pageSize at hb hm halign
  have hlookup : vmPageLookupCow S t va = some (S, .error (-eFault)) := by
    unfold vmPageLookupCow
    rw [hI.vmPageLookup_eq hva, hpage]
    rfl
  unfold vmUserCheckBuf
  rw [if_neg (by omega), vmUserCheckBufLoop, if_pos (by omega), hlookup]

/-! ## A buffer across `VIRT_KERNEL_BASE` -/

/-- In every state that calls reach from boot, with the last user page of a table mapped, not
copy-on-write and with the flags asked for, `vm_user_check_buf` on a buffer that starts in that
page and ends past `VIRT_KERNEL_BASE`, without wrapping, panics. -/
theorem check_buf_crossing_panics {free : List Nat} (hfree : free.Nodup)
    (hS : VmReachable tables free S) {t : Nat} {e : Pte}
    (he : S.pageEntry t (virtKernelBase - pageSize) = some e) (hcow : e.flags.cow = false)
    (flags : VmFlags) (hflags : vmFlagsCheck e.flags flags = true) {startVa n : Nat}
    (hstart : virtKernelBase - pageSize ≤ startVa) (hstart' : startVa < virtKernelBase)
    (hend : virtKernelBase < startVa + n) (hwrap : startVa + n + pageSize ≤ 2 ^ 32) :
    vmUserCheckBuf S t startVa n flags = none := by
  have hI := hS.inv hfree
  obtain ⟨hlo, -⟩ := userEnd_bounds hwrap
  have hm := userEnd_mod startVa n
  -- `end_va` is a page boundary past `VIRT_KERNEL_BASE`, so a whole page past it
  have hpast : virtKernelBase + pageSize ≤ userEnd startVa n := by
    unfold virtKernelBase pageSize at *
    omega
  have hdiv : startVa / pageSize = (virtKernelBase - pageSize) / pageSize := by
    unfold virtKernelBase pageSize at *
    omega
  have he' : S.pageEntry t startVa = some e := by
    rw [pageEntry_div hdiv]
    exact he
  unfold vmUserCheckBuf
  rw [if_neg (by omega), vmUserCheckBufLoop_mapped hI he' hcow hflags hstart' (by omega)]
  exact vmUserCheckBufLoop_kernel (by omega) (by omega)

/-- From boot, the last user page of table 0 made readable and writable: a check for reading
of the 32 bytes from 16 below `VIRT_KERNEL_BASE`. -/
theorem check_buf_crossing_panics_stack :
    ∃ S, VmReachable {0} [5, 6, 7] S ∧
      vmUserCheckBuf S 0 (virtKernelBase - 16) 32
        ⟨true, false, false, false, true, false, false⟩ = none := by
  have h : (vmUserAlloc (vmBoot [5, 6, 7]) 0 (virtKernelBase - pageSize) pageSize
      ⟨true, true, false, false, true, false, false⟩).map
      (fun x => ((x.1.pageEntry 0 (virtKernelBase - pageSize)).map (·.flags), x.2)) =
    some (some ⟨true, true, false, false, true, false, true⟩, 0) := by
    decide +kernel
  obtain ⟨⟨S, r⟩, halloc, hx⟩ := Option.map_eq_some_iff.mp h
  simp only [Prod.mk.injEq] at hx
  obtain ⟨hentry, -⟩ := hx
  obtain ⟨e, he, hflags⟩ := Option.map_eq_some_iff.mp hentry
  have hS : VmReachable {0} [5, 6, 7] S := .step .boot (.alloc 0 _ _ _ (by simp) halloc)
  refine ⟨S, hS, check_buf_crossing_panics (by decide) hS he (by rw [hflags]) _
    (by rw [hflags]; decide) (by decide) (by decide) (by decide) (by decide)⟩

end Argentum.Mm
