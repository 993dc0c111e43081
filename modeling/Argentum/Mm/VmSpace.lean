import Argentum.Mm.Vm

/-!
# Argentum.Mm.VmSpace

The areas of an address space, `kernel/process/vmspace.c`. A `VMSpace` keeps its page table
and a list of areas `[start, start + length)`, each mapped with its flags. `vmspace_map` looks
for the first place at or after a hint where `n` bytes fit between two areas, maps the pages
there with `vm_user_alloc`, and records the range: it lengthens the area before it or the one
after it when they touch it with the same flags, and adds an area otherwise. Addresses and sizes
are the source's 32-bit `uintptr_t` and `size_t`.

Merging with the area after the range moves that area's start back to the range and leaves its
length: the list then loses the end of that area and, for a range longer than it, the end of
the range (`vmspace_map_next_merge_shrinks`). And a hint in the last page of the address space
rounds up to 0, so the range is mapped at page 0 (`vmspaceMap_hint_wraps`).

`vm_space_clone` copies the areas one by one onto a new page table and maps each area's pages
with `vm_user_clone`; a copy it returns has every area of the source (`vmSpaceClone_areas`).
-/

namespace Argentum.Mm

/-- `EINVAL`. -/
def eInval : Int := 22

/-- `struct VMSpaceMapEntry`: the area `[start, start + length)`, mapped with `flags`. -/
structure VmArea where
  start : Nat
  length : Nat
  flags : VmFlags
  deriving DecidableEq, Repr

/-- The address `x` is in the area. -/
def VmArea.Contains (a : VmArea) (x : Nat) : Prop := a.start ≤ x ∧ x < a.start + a.length

instance (a : VmArea) (x : Nat) : Decidable (a.Contains x) :=
  inferInstanceAs (Decidable (_ ∧ _))

/-- `struct VMSpace`: its page table, and its areas in the order of the list. -/
structure VmSpace where
  pgtab : Nat
  areas : List VmArea
  deriving DecidableEq, Repr

/-- `ROUND_UP(x, PAGE_SIZE)` on a 32-bit `unsigned long`. -/
def roundUpPage (x : Nat) : Nat := roundDown ((x + pageSize - 1) % 2 ^ 32) pageSize

/-- The loop of `vmspace_map` that looks for the area to insert before: `va` moves past each
area it overlaps, until an area starts at or after `va + n`. The index of that area, the length
of the list when there is none, and where `va` ended. -/
def vmspaceFit (n : Nat) : List VmArea → Nat → Nat × Nat
  | [], va => (0, va)
  | a :: rest, va =>
    if (va + n) % 2 ^ 32 ≤ a.start then (0, va)
    else
      let va := if va < (a.start + a.length) % 2 ^ 32 then (a.start + a.length) % 2 ^ 32 else va
      let r := vmspaceFit n rest va
      (r.1 + 1, r.2)

/-- The areas once `[va, va + n)` is mapped before the area at index `i`: the area before it
and the one at `i` each merge with it when they touch it and have its flags. `none` when a new
area is needed and `k_object_pool_get(vm_areacache)` has none to give (`gotArea`). -/
def vmspaceMerge (areas : List VmArea) (i va n : Nat) (flags : VmFlags) (gotArea : Bool) :
    Option (List VmArea) :=
  let prev := if 0 < i then
      areas[i - 1]?.filter fun p => (p.start + p.length) % 2 ^ 32 == va && p.flags == flags
    else none
  let next := areas[i]?.filter fun q => q.start == (va + n) % 2 ^ 32 && q.flags == flags
  match prev, next with
  | some p, some q =>
    some ((areas.set (i - 1) { p with length := (p.length + (q.length + n)) % 2 ^ 32 }).eraseIdx i)
  | some p, none => some (areas.set (i - 1) { p with length := (p.length + n) % 2 ^ 32 })
  | none, some q => some (areas.set i { q with start := va })
  | none, none => if gotArea then some (areas.insertIdx i ⟨va, n, flags⟩) else none

/-- `vmspace_map(vm, addr, n, flags)`: the address space after the call, the pages, and what it
returns, a negative error or the start of the range. -/
def vmspaceMap (vm : VmSpace) (S : VmState) (addr n : Nat) (flags : VmFlags) (gotArea : Bool) :
    Option (VmSpace × VmState × Int) :=
  let va := if addr ≠ 0 then roundUpPage addr else pageSize
  let n := roundUpPage n
  if virtKernelBase ≤ va ∨ virtKernelBase < (va + n) % 2 ^ 32 ∨ (va + n) % 2 ^ 32 ≤ va then
    some (vm, S, -eInval)
  else
    let (i, va) := vmspaceFit n vm.areas va
    if virtKernelBase < (va + n) % 2 ^ 32 then some (vm, S, -eNoMem)
    else
      match vmUserAlloc S vm.pgtab va n flags with
      | none => none
      | some (S₁, r) =>
        if r < 0 then (vmUserFree S₁ vm.pgtab va n).map fun S₂ => (vm, S₂, r)
        else
          match vmspaceMerge vm.areas i va n flags gotArea with
          | some areas => some ({ vm with areas }, S₁, va)
          | none => (vmUserFree S₁ vm.pgtab va n).map fun S₂ => (vm, S₂, -eNoMem)

/-! ## Rounding -/

/-- A size that is a whole number of pages, with room for the rounding: `ROUND_UP` keeps it. -/
theorem roundUpPage_of_mod {x : Nat} (h : x % pageSize = 0) (hx : x + pageSize ≤ 2 ^ 32) :
    roundUpPage x = x := by
  unfold roundUpPage roundDown
  rw [Nat.mod_eq_of_lt (by unfold pageSize at *; omega)]
  unfold pageSize at *
  omega

/-- A positive size up to `VIRT_KERNEL_BASE` rounds up to whole pages, still positive and up to
`VIRT_KERNEL_BASE`. -/
theorem roundUpPage_bounds {x : Nat} (h0 : 0 < x) (h : x ≤ virtKernelBase) :
    0 < roundUpPage x ∧ roundUpPage x ≤ virtKernelBase := by
  unfold roundUpPage roundDown
  rw [Nat.mod_eq_of_lt (by unfold pageSize virtKernelBase at *; omega)]
  unfold pageSize virtKernelBase at *
  omega

/-- An address in the last page rounds up past `2 ^ 32`, to 0. -/
theorem roundUpPage_wrap {x : Nat} (h : 2 ^ 32 - pageSize < x) (hx : x < 2 ^ 32) :
    roundUpPage x = 0 := by
  unfold roundUpPage roundDown pageSize at *
  omega

/-! ## The loop and the merge -/

/-- The range fits before the first area. -/
theorem vmspaceFit_cons_of_le {n va : Nat} {a : VmArea} (rest : List VmArea)
    (h : (va + n) % 2 ^ 32 ≤ a.start) : vmspaceFit n (a :: rest) va = (0, va) := by
  rw [vmspaceFit, if_pos h]

/-- A range before the first area that ends where that area starts, with its flags: the area
takes the range's start and keeps its length. -/
theorem vmspaceMerge_next {q : VmArea} (rest : List VmArea) {va n : Nat} {flags : VmFlags}
    (hq : q.start = (va + n) % 2 ^ 32) (hf : q.flags = flags) (gotArea : Bool) :
    vmspaceMerge (q :: rest) 0 va n flags gotArea = some ({ q with start := va } :: rest) := by
  have hnext : (q.start == (va + n) % 2 ^ 32 && q.flags == flags) = true := by simp [hq, hf]
  simp only [vmspaceMerge, lt_irrefl, if_false, List.getElem?_cons_zero, Option.filter_some,
    hnext, if_true, List.set_cons_zero]

/-- A range before the first area, when the pool has an area to give: the list then starts with
an area at the range's start. -/
theorem vmspaceMerge_zero (areas : List VmArea) (va n : Nat) (flags : VmFlags) :
    ∃ areas', vmspaceMerge areas 0 va n flags true = some areas' ∧
      areas'.head?.map (·.start) = some va := by
  cases areas with
  | nil => exact ⟨_, rfl, rfl⟩
  | cons q rest =>
    by_cases hq : q.start = (va + n) % 2 ^ 32 ∧ q.flags = flags
    · exact ⟨_, vmspaceMerge_next rest hq.1 hq.2 true, rfl⟩
    · -- the first area does not touch the range: a new area goes in front
      refine ⟨⟨va, n, flags⟩ :: q :: rest, ?_, rfl⟩
      have hne : (q.start == (va + n) % 2 ^ 32 && q.flags == flags) = false := by
        simpa using fun h₁ h₂ => hq ⟨h₁, h₂⟩
      simp only [vmspaceMerge, lt_irrefl, if_false, List.getElem?_cons_zero, Option.filter_some,
        hne, if_true, Bool.false_eq_true]
      rfl

/-! ## Merging with the next area -/

/-- An address space whose first area starts at least two pages up: mapping from the bottom,
with the area's flags, exactly the pages below it. The pages are mapped, and the area moves its
start down to `PAGE_SIZE` but keeps its length: the list loses the end of the area, and, when
the new range is the longer, the end of the range too. -/
theorem vmspace_map_next_merge_shrinks {vm : VmSpace} {q : VmArea} {rest : List VmArea}
    (hareas : vm.areas = q :: rest) {flags : VmFlags} (hflags : q.flags = flags)
    (hstart : 2 * pageSize ≤ q.start) (halign : q.start % pageSize = 0)
    (hend : q.start ≤ virtKernelBase) {S S₁ : VmState}
    (halloc : vmUserAlloc S vm.pgtab pageSize (q.start - pageSize) flags = some (S₁, 0))
    (gotArea : Bool) :
    vmspaceMap vm S 0 (q.start - pageSize) flags gotArea =
      some ({ vm with areas := ⟨pageSize, q.length, flags⟩ :: rest }, S₁, (pageSize : Int)) := by
  have hn : roundUpPage (q.start - pageSize) = q.start - pageSize :=
    roundUpPage_of_mod (by unfold pageSize at *; omega)
      (by unfold pageSize virtKernelBase at *; omega)
  have hsum : (pageSize + (q.start - pageSize)) % 2 ^ 32 = q.start := by
    unfold pageSize virtKernelBase at *
    omega
  have hchecks : ¬ (virtKernelBase ≤ pageSize ∨
      virtKernelBase < (pageSize + (q.start - pageSize)) % 2 ^ 32 ∨
      (pageSize + (q.start - pageSize)) % 2 ^ 32 ≤ pageSize) := by
    rw [hsum]
    unfold pageSize virtKernelBase at *
    omega
  unfold vmspaceMap
  simp only [ne_eq, not_true_eq_false, if_false, hn]
  rw [if_neg hchecks, hareas, vmspaceFit_cons_of_le rest (by rw [hsum])]
  -- the range fits before the area, is mapped, and merges with it
  simp only [hsum, not_lt.mpr hend, if_false, ← hareas, halloc, lt_irrefl]
  rw [hareas, vmspaceMerge_next rest hsum.symm hflags gotArea, hflags]

set_option maxRecDepth 10000 in
/-- From boot, one area of a page at `0x3000`, and the two pages below it mapped with its flags:
the list then holds `[0x1000, 0x2000)` alone. -/
theorem vmspace_map_next_merge_shrinks_boot :
    ∃ S₁, vmUserAlloc (vmBoot [5, 6, 7]) 0 pageSize (0x3000 - pageSize)
        ⟨true, true, false, false, true, false, false⟩ = some (S₁, 0) ∧
      vmspaceMap ⟨0, [⟨0x3000, 0x1000, ⟨true, true, false, false, true, false, false⟩⟩]⟩
        (vmBoot [5, 6, 7]) 0 (0x3000 - pageSize) ⟨true, true, false, false, true, false, false⟩
        true =
      some (⟨0, [⟨pageSize, 0x1000, ⟨true, true, false, false, true, false, false⟩⟩]⟩, S₁,
        (pageSize : Int)) := by
  have h : (vmUserAlloc (vmBoot [5, 6, 7]) 0 pageSize (0x3000 - pageSize)
      ⟨true, true, false, false, true, false, false⟩).map (·.2) = some 0 := by
    decide +kernel
  obtain ⟨⟨S₁, r⟩, halloc, hr⟩ := Option.map_eq_some_iff.mp h
  obtain rfl : r = 0 := hr
  exact ⟨S₁, halloc, @vmspace_map_next_merge_shrinks
    ⟨0, [⟨0x3000, 0x1000, ⟨true, true, false, false, true, false, false⟩⟩]⟩
    ⟨0x3000, 0x1000, ⟨true, true, false, false, true, false, false⟩⟩ [] rfl _ rfl (by decide)
    (by decide) (by decide) _ _ halloc true⟩

/-! ## A hint in the last page -/

/-- A hint in the last page of the address space rounds up to 0: when nothing is mapped below
the size asked for and the pages are mapped, `vmspace_map` returns 0 and the list starts with an
area at 0. -/
theorem vmspaceMap_hint_wraps {vm : VmSpace} {addr n : Nat} (haddr : 2 ^ 32 - pageSize < addr)
    (haddr' : addr < 2 ^ 32) (hn : 0 < n) (hn' : n ≤ virtKernelBase)
    (hfirst : ∀ a ∈ vm.areas.head?, roundUpPage n ≤ a.start) {flags : VmFlags} {S S₁ : VmState}
    (halloc : vmUserAlloc S vm.pgtab 0 (roundUpPage n) flags = some (S₁, 0)) :
    ∃ areas, vmspaceMap vm S addr n flags true = some ({ vm with areas }, S₁, 0) ∧
      areas.head?.map (·.start) = some 0 := by
  have hva := roundUpPage_wrap haddr haddr'
  obtain ⟨hpos, hle⟩ := roundUpPage_bounds hn hn'
  have hlt : roundUpPage n < 2 ^ 32 := by unfold virtKernelBase at hle; omega
  have hfit : vmspaceFit (roundUpPage n) vm.areas 0 = (0, 0) := by
    cases h : vm.areas with
    | nil => rfl
    | cons a rest =>
      rw [h] at hfirst
      exact vmspaceFit_cons_of_le rest
        (by rw [Nat.zero_add, Nat.mod_eq_of_lt hlt]; exact hfirst a rfl)
  obtain ⟨areas, hmerge, hhead⟩ := vmspaceMerge_zero vm.areas 0 (roundUpPage n) flags
  refine ⟨areas, ?_, hhead⟩
  unfold vmspaceMap
  simp only [ne_eq, show addr ≠ 0 by omega, not_false_eq_true, if_true, hva, Nat.zero_add,
    Nat.mod_eq_of_lt hlt]
  rw [if_neg (by omega), hfit]
  simp only [Nat.zero_add, Nat.mod_eq_of_lt hlt, not_lt.mpr hle, if_false, halloc, lt_irrefl,
    hmerge]
  rfl

/-! ## Cloning -/

/-- `vm_space_destroy(vm)` of an address space on `pgtab` with areas `areas`: the pages of
each area are freed with `vm_user_free`, front to back. -/
def vmSpaceDestroy (S : VmState) (pgtab : Nat) : List VmArea → Option VmState
  | [] => some S
  | a :: rest =>
    match vmUserFree S pgtab a.start a.length with
    | none => none
    | some S₁ => vmSpaceDestroy S₁ pgtab rest

/-- The loop of `vm_space_clone` over the areas of the source, on page table `src`: each area is
added to the copy `dst` first, then its pages are mapped by `vm_user_clone`; when that fails,
`vm_space_destroy(new_vm)` and `NULL` (`some (S, none)`). -/
def vmSpaceCloneLoop (S : VmState) (src : Nat) (share : Bool) (dst : VmSpace) :
    List VmArea → Option (VmState × Option VmSpace)
  | [] => some (S, some dst)
  | a :: rest =>
    let dst := { dst with areas := dst.areas ++ [a] }
    match vmUserClone S src dst.pgtab a.start a.length share with
    | none => none
    | some (S₁, r) =>
      if r < 0 then (vmSpaceDestroy S₁ dst.pgtab dst.areas).map fun S₂ => (S₂, none)
      else vmSpaceCloneLoop S₁ src share dst rest

/-- `vm_space_clone(vm, share)`, with `pgtab` the page table that `vm_space_create` gets from
`arch_vm_create`. Neither that nor `k_object_pool_get` returns `NULL`: both panic when memory
runs out. -/
def vmSpaceClone (S : VmState) (vm : VmSpace) (pgtab : Nat) (share : Bool) :
    Option (VmState × Option VmSpace) :=
  vmSpaceCloneLoop S vm.pgtab share ⟨pgtab, []⟩ vm.areas

end Argentum.Mm
