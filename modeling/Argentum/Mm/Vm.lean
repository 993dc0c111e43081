import Argentum.Mm.ObjectPool

/-!
# Argentum.Mm.Vm

User memory of `kernel/mm/vm.c`: anonymous pages mapped into page tables, shared between
address spaces by `vm_user_clone` and copied on write.

A page table is named by a number, and its second-level entries are `pte pgtab vpn` for
the virtual page `vpn = va / PAGE_SIZE`; `none` is an invalid entry. Whether the first-level
entry for `va` holds a second-level table is `l1 pgtab (va >>> 20)`, as on ARM, where
`arch_vm_lookup` allocates the tables two at a time. An entry keeps the flags it was set
with, as ARM's `pte_ext` does. Physical pages are numbered, with their descriptors in
`pages`; the bytes of page `p` are `mem p`.

The page allocator is the list `free` of the pages it can hand out: `page_alloc_one` takes
the head and panics when the list is empty, as `page_alloc_block` does when it runs out of
memory; `page_free_one` puts the page back at the head. Which free page the buddy allocator
would pick is the order of the list.

Return codes are the source's `int`s; a `k_panic` or failed `k_assert` is `none`.
-/

namespace Argentum.Mm

/-! ## Flags and entries -/

/-- The `VM_*` mapping flags, a field for each bit. -/
structure VmFlags where
  /-- `VM_READ` (`PROT_READ`). -/
  read : Bool
  /-- `VM_WRITE` (`PROT_WRITE`). -/
  write : Bool
  /-- `VM_EXEC` (`PROT_EXEC`). -/
  exec : Bool
  /-- `VM_NOCACHE` (`PROT_NOCACHE`). -/
  nocache : Bool
  /-- `VM_USER`. -/
  user : Bool
  /-- `VM_COW`: a read-only view of a page to be copied on the first write. -/
  cow : Bool
  /-- `VM_PAGE`: the entry maps a page of the page allocator. -/
  page : Bool
  deriving DecidableEq, Repr, Inhabited

/-- A valid second-level entry: the physical page it maps and its flags. -/
structure Pte where
  addr : Nat
  flags : VmFlags
  deriving DecidableEq, Repr, Inhabited

/-- `PAGE_TAG_ANON`. -/
def pageTagAnon : Nat := 0xABCD0007

/-- `PAGE_TAG_PGTAB`. -/
def pageTagPgtab : Nat := 0xABCD0008

/-- `VIRT_KERNEL_BASE`. -/
def virtKernelBase : Nat := 0x80000000

/-- `ENOMEM`. -/
def eNoMem : Int := 12

/-- `EFAULT`. -/
def eFault : Int := 14

/-- Virtual pages below `VIRT_KERNEL_BASE`. -/
def userPages : Nat := virtKernelBase / pageSize

/-- `L1_IDX(va)` on ARM: the 1 MiB section of `va`. -/
def l1Idx (va : Nat) : Nat := va >>> 20

/-- The page tables, physical pages and page allocator that user memory works on. -/
structure VmState where
  pte : Nat → Nat → Option Pte
  l1 : Nat → Nat → Bool
  pages : Nat → PageDesc
  free : List Nat
  mem : Nat → Nat → UInt8

/-! ## The page allocator and the page tables -/

/-- The entry for virtual page `vpn` of `pgtab` set to `e`. -/
def VmState.setPte (S : VmState) (pgtab vpn : Nat) (e : Option Pte) : VmState :=
  { S with pte := Function.update S.pte pgtab (Function.update (S.pte pgtab) vpn e) }

/-- The reference count of `page` set to `n`. -/
def VmState.setRefCount (S : VmState) (page n : Nat) : VmState :=
  { S with pages := Function.update S.pages page { S.pages page with refCount := n } }

/-- `page_alloc_one(PAGE_ALLOC_ZERO, tag)`: the head of the free list, zeroed and tagged. -/
def pageAllocOne (S : VmState) (tag : Nat) : Option (VmState × Nat) :=
  match S.free with
  | [] => none
  | page :: rest =>
    if (S.pages page).refCount ≠ 0 then none
    else
      match pageAllocBlockTag S.pages page 0 tag with
      | none => none
      | some pages =>
        some ({ S with free := rest, pages, mem := Function.update S.mem page fun _ => 0 }, page)

/-- `page_free_one(page)`: an unreferenced page loses its tag and goes back. -/
def pageFreeOne (S : VmState) (page : Nat) : Option VmState :=
  if (S.pages page).refCount ≠ 0 then none
  else
    some { S with
      free := page :: S.free
      pages := Function.update S.pages page { S.pages page with debugTag := 0 } }

/-- `arch_vm_lookup(pgtab, va, alloc)` on a user page table: whether an entry for `va`
exists, after allocating the second-level tables for it when `alloc` is set. -/
def archVmLookup (S : VmState) (pgtab va : Nat) (alloc : Bool) : Option (VmState × Bool) :=
  if va ≥ virtKernelBase then none
  else if S.l1 pgtab (l1Idx va) then some (S, true)
  else if !alloc then some (S, false)
  else
    match pageAllocOne S pageTagPgtab with
    | none => none
    | some (S₁, page) =>
      let i := l1Idx va / 2 * 2
      let S₂ := S₁.setRefCount page ((S₁.pages page).refCount + 1)
      some ({ S₂ with
        l1 := Function.update S₂.l1 pgtab
          (Function.update (Function.update (S₂.l1 pgtab) i true) (i + 1) true) }, true)

/-- The entry for `va`, when valid with `VM_PAGE`. -/
def VmState.pageEntry (S : VmState) (pgtab va : Nat) : Option Pte :=
  match S.pte pgtab (va / pageSize) with
  | some e => if e.flags.page then some e else none
  | none => none

/-- `vm_page_lookup(pgtab, va, &flags)`: the page mapped at `va` and its flags. -/
def vmPageLookup (S : VmState) (pgtab va : Nat) : Option (Option (Nat × VmFlags)) :=
  match archVmLookup S pgtab va false with
  | none => none
  | some (_, false) => some none
  | some (_, true) =>
    match S.pageEntry pgtab va with
    | none => some none
    | some e => if pageAssert S.pages e.addr 0 pageTagAnon then some (some (e.addr, e.flags))
      else none

/-- `if (--page->ref_count == 0) page_free_one(page)`. -/
def pageDropRef (S : VmState) (page : Nat) : Option VmState :=
  let refCount := (S.pages page).refCount - 1
  let S₁ := S.setRefCount page refCount
  if refCount = 0 then pageFreeOne S₁ page else some S₁

/-- `vm_page_remove(pgtab, va)`: drop the mapping at `va` and its reference, freeing the
page on the last one. -/
def vmPageRemove (S : VmState) (pgtab va : Nat) : Option VmState :=
  match archVmLookup S pgtab va false with
  | none => none
  | some (_, false) => some S
  | some (_, true) =>
    match S.pageEntry pgtab va with
    | none => some S
    | some e =>
      if !pageAssert S.pages e.addr 0 pageTagAnon then none
      else (pageDropRef S e.addr).map fun S₂ => S₂.setPte pgtab (va / pageSize) none

/-- `vm_page_insert(pgtab, page, va, flags)`: take a reference first, so that re-inserting
the page mapped at `va` keeps it, then replace the mapping. -/
def vmPageInsert (S : VmState) (pgtab page va : Nat) (flags : VmFlags) :
    Option (VmState × Int) :=
  match archVmLookup S pgtab va true with
  | none => none
  | some (_, false) => some (S, -eNoMem)
  | some (S₁, true) =>
    let S₂ := S₁.setRefCount page ((S₁.pages page).refCount + 1)
    (vmPageRemove S₂ pgtab va).map fun S₃ =>
      (S₃.setPte pgtab (va / pageSize) (some ⟨page, { flags with page := true }⟩), 0)

/-- `vm_page_cow(pgtab, va, page, flags)`: make the mapping at `va` writable, in place
when the page has one reference and on a copy otherwise. -/
def vmPageCow (S : VmState) (pgtab va page : Nat) (flags : VmFlags) :
    Option (VmState × Option Nat) :=
  if !flags.cow then none
  else
    let flags := { flags with cow := false, write := true }
    if (S.pages page).refCount = 1 then
      match vmPageInsert S pgtab page va flags with
      | none => none
      | some (S₁, r) => some (S₁, if r < 0 then none else some page)
    else
      match pageAllocOne S pageTagAnon with
      | none => none
      | some (S₁, copy) =>
        let S₂ := { S₁ with mem := Function.update S₁.mem copy (S₁.mem page) }
        match vmPageInsert S₂ pgtab copy va flags with
        | none => none
        | some (S₃, r) =>
          if r < 0 then (pageFreeOne S₃ copy).map fun S₄ => (S₄, none)
          else some (S₃, some copy)

/-- `vm_page_lookup_cow(pgtab, va, &page, &flags)`: the page at `va`, copied first when
mapped copy-on-write; the flags are those found, `VM_COW` included. -/
def vmPageLookupCow (S : VmState) (pgtab va : Nat) :
    Option (VmState × Except Int (Nat × VmFlags)) :=
  match vmPageLookup S pgtab va with
  | none => none
  | some none => some (S, .error (-eFault))
  | some (some (page, flags)) =>
    if flags.cow then
      match vmPageCow S pgtab va page flags with
      | none => none
      | some (S₁, none) => some (S₁, .error (-eNoMem))
      | some (S₁, some page) => some (S₁, .ok (page, flags))
    else some (S, .ok (page, flags))

/-! ## Copying to and from user memory -/

/-- `vm_user_assert(start_va, end_va)`, with `end_va` computed in 32 bits. -/
def vmUserAssert (startVa endVa : Nat) : Bool :=
  startVa < virtKernelBase && startVa ≤ endVa

/-- Bytes `offset .. offset + n` of a page replaced by `f 0 .. f (n - 1)`. -/
def writeChunk (m : Nat → UInt8) (offset n : Nat) (f : Nat → UInt8) : Nat → UInt8 :=
  fun o => if offset ≤ o ∧ o < offset + n then f (o - offset) else m o

/-- The loop that `vm_copy_out` and `vm_clear` share: page by page, find the page at
`dstVa`, copying it on write, and store `f p ..` in it. -/
def vmWriteLoop (S : VmState) (pgtab : Nat) (f : Nat → UInt8) (p dstVa n : Nat) :
    Option (VmState × Int) :=
  if n = 0 then some (S, 0)
  else
    let offset := dstVa % pageSize
    let ncopy := min (pageSize - offset) n
    match vmPageLookupCow S pgtab dstVa with
    | none => none
    | some (S₁, .error r) => some (S₁, r)
    | some (S₁, .ok (page, _)) =>
      vmWriteLoop
        { S₁ with
          mem := Function.update S₁.mem page
            (writeChunk (S₁.mem page) offset ncopy fun i => f (p + i)) }
        pgtab f (p + ncopy) (dstVa + ncopy) (n - ncopy)
termination_by n
decreasing_by
  have : dstVa % pageSize < pageSize := Nat.mod_lt _ (by decide)
  omega

/-- `vm_copy_out(pgtab, src, dst_va, n)`: the bytes `src 0 .. src (n - 1)`. -/
def vmCopyOut (S : VmState) (pgtab : Nat) (src : Nat → UInt8) (dstVa n : Nat) :
    Option (VmState × Int) :=
  if !vmUserAssert dstVa ((dstVa + n) % 2 ^ 32) then none
  else vmWriteLoop S pgtab src 0 dstVa n

/-- `vm_clear(pgtab, dst_va, n)`: zeros. -/
def vmClear (S : VmState) (pgtab dstVa n : Nat) : Option (VmState × Int) :=
  if !vmUserAssert dstVa ((dstVa + n) % 2 ^ 32) then none
  else vmWriteLoop S pgtab (fun _ => 0) 0 dstVa n

/-- The loop of `vm_copy_in`: the bytes read so far, in order. -/
def vmCopyInLoop (S : VmState) (pgtab srcVa n : Nat) : Option (Except Int (List UInt8)) :=
  if n = 0 then some (.ok [])
  else
    let offset := srcVa % pageSize
    let ncopy := min (pageSize - offset) n
    match vmPageLookup S pgtab srcVa with
    | none => none
    | some none => some (.error (-eFault))
    | some (some (page, _)) =>
      (vmCopyInLoop S pgtab (srcVa + ncopy) (n - ncopy)).map fun r =>
        r.map fun rest => (List.range ncopy).map (fun i => S.mem page (offset + i)) ++ rest
termination_by n
decreasing_by
  have : srcVa % pageSize < pageSize := Nat.mod_lt _ (by decide)
  omega

/-- `vm_copy_in(vm, dst, src_va, n)`: the `n` bytes at `src_va`. -/
def vmCopyIn (S : VmState) (pgtab srcVa n : Nat) : Option (Except Int (List UInt8)) :=
  if !vmUserAssert srcVa ((srcVa + n) % 2 ^ 32) then none
  else vmCopyInLoop S pgtab srcVa n

/-! ## Whole regions -/

/-- `ROUND_UP(start_va + n, PAGE_SIZE)` in 32-bit arithmetic. -/
def userEnd (startVa n : Nat) : Nat :=
  roundDown (((startVa + n) % 2 ^ 32 + pageSize - 1) % 2 ^ 32) pageSize

/-- `vm_user_assert_pages(start_va, end_va)`. -/
def vmUserAssertPages (startVa endVa : Nat) : Bool :=
  startVa % pageSize == 0 && startVa < virtKernelBase && startVa ≤ endVa

/-- The loop of `vm_user_free`. -/
def vmUserFreeLoop (S : VmState) (pgtab va endVa : Nat) : Option VmState :=
  if va < endVa then
    match vmPageRemove S pgtab va with
    | none => none
    | some S₁ => vmUserFreeLoop S₁ pgtab (va + pageSize) endVa
  else some S
termination_by endVa - va
decreasing_by
  have : 0 < pageSize := by decide
  omega

/-- `vm_user_free(vm, start_va, n)`. -/
def vmUserFree (S : VmState) (pgtab startVa n : Nat) : Option VmState :=
  let endVa := userEnd startVa n
  if !vmUserAssertPages startVa endVa then none
  else vmUserFreeLoop S pgtab startVa endVa

/-- The loop of `vm_user_alloc`: a zeroed page mapped at each `va`. On a failed insert
the page goes back and the region mapped so far is freed; `r` is then the truth value
`vm_page_insert(...) != 0`, as the source's parentheses assign it. -/
def vmUserAllocLoop (S : VmState) (pgtab startVa va endVa : Nat) (flags : VmFlags) :
    Option (VmState × Int) :=
  if va < endVa then
    match pageAllocOne S pageTagAnon with
    | none => none
    | some (S₁, page) =>
      match vmPageInsert S₁ pgtab page va flags with
      | none => none
      | some (S₂, r) =>
        if r ≠ 0 then
          match pageFreeOne S₂ page with
          | none => none
          | some S₃ => (vmUserFree S₃ pgtab startVa (va - startVa)).map fun S₄ => (S₄, 1)
        else vmUserAllocLoop S₂ pgtab startVa (va + pageSize) endVa flags
  else some (S, 0)
termination_by endVa - va
decreasing_by
  have : 0 < pageSize := by decide
  omega

/-- `vm_user_alloc(vm, start_va, n, flags)`. -/
def vmUserAlloc (S : VmState) (pgtab startVa n : Nat) (flags : VmFlags) :
    Option (VmState × Int) :=
  let endVa := userEnd startVa n
  if !vmUserAssertPages startVa endVa then none
  else vmUserAllocLoop S pgtab startVa startVa endVa flags

/-- The page of `vm_user_clone` at `va` of `src` and the flags to map it with: with `share`,
looked up and copied on write; without, a writable page becomes copy-on-write in `src`. -/
def vmUserCloneLookup (S : VmState) (src va : Nat) (share : Bool) :
    Option (VmState × Except Int (Nat × VmFlags)) :=
  if share then vmPageLookupCow S src va
  else
    match vmPageLookup S src va with
    | none => none
    | some none => some (S, .error (-eFault))
    | some (some (page, flags)) =>
      if flags.write then
        let flags := { flags with write := false, cow := true }
        match vmPageInsert S src page va flags with
        | none => none
        | some (S₁, r) => some (S₁, if r < 0 then .error r else .ok (page, flags))
      else some (S, .ok (page, flags))

/-- One page of `vm_user_clone`: map the page found at `va` of `src` in `dst`. -/
def vmUserClonePage (S : VmState) (src dst va : Nat) (share : Bool) :
    Option (VmState × Int) :=
  match vmUserCloneLookup S src va share with
  | none => none
  | some (S₁, .error r) => some (S₁, r)
  | some (S₁, .ok (page, flags)) => vmPageInsert S₁ dst page va flags

/-- The loop of `vm_user_clone`. -/
def vmUserCloneLoop (S : VmState) (src dst va endVa : Nat) (share : Bool) :
    Option (VmState × Int) :=
  if va < endVa then
    match vmUserClonePage S src dst va share with
    | none => none
    | some (S₁, r) =>
      if r < 0 then some (S₁, r) else vmUserCloneLoop S₁ src dst (va + pageSize) endVa share
  else some (S, 0)
termination_by endVa - va
decreasing_by
  have : 0 < pageSize := by decide
  omega

/-- `vm_user_clone(src, dst, start_va, n, share)`. -/
def vmUserClone (S : VmState) (src dst startVa n : Nat) (share : Bool) :
    Option (VmState × Int) :=
  let endVa := userEnd startVa n
  if !vmUserAssertPages startVa endVa then none
  else vmUserCloneLoop S src dst startVa endVa share

/-! ## Checks and faults -/

/-- `vm_flags_check(curr_flags, flags)`: a copy-on-write mapping counts as writable. -/
def vmFlagsCheck (curr flags : VmFlags) : Bool :=
  let curr := if curr.cow then { curr with cow := false, write := true } else curr
  (!flags.read || curr.read) && (!flags.write || curr.write) && (!flags.exec || curr.exec) &&
    (!flags.nocache || curr.nocache) && (!flags.user || curr.user) &&
    (!flags.cow || curr.cow) && (!flags.page || curr.page)

/-- The loop of `vm_user_check_buf`: each page is looked up, and copied on write. -/
def vmUserCheckBufLoop (S : VmState) (pgtab va endVa : Nat) (flags : VmFlags) :
    Option (VmState × Int) :=
  if va < endVa then
    match vmPageLookupCow S pgtab va with
    | none => none
    | some (S₁, .error r) => some (S₁, r)
    | some (S₁, .ok (_, curr)) =>
      if !vmFlagsCheck curr flags then some (S₁, -eFault)
      else vmUserCheckBufLoop S₁ pgtab (va + pageSize) endVa flags
  else some (S, 0)
termination_by endVa - va
decreasing_by
  have : 0 < pageSize := by decide
  omega

/-- `vm_user_check_buf(pgtab, start_va, n, flags)`. -/
def vmUserCheckBuf (S : VmState) (pgtab startVa n : Nat) (flags : VmFlags) :
    Option (VmState × Int) :=
  let endVa := userEnd startVa n
  if startVa ≥ virtKernelBase ∨ endVa < startVa then some (S, -eFault)
  else vmUserCheckBufLoop S pgtab startVa endVa flags

/-- `vm_handle_fault(pgtab, va)`: a write to a copy-on-write page. -/
def vmHandleFault (S : VmState) (pgtab va : Nat) : Option (VmState × Int) :=
  if va < pageSize ∨ va ≥ virtKernelBase then some (S, -eFault)
  else
    match vmPageLookup S pgtab va with
    | none => none
    | some none => some (S, -eFault)
    | some (some (page, flags)) =>
      if !flags.cow then some (S, -eFault)
      else
        match vmPageCow S pgtab va page flags with
        | none => none
        | some (S₁, none) => some (S₁, -eNoMem)
        | some (S₁, some _) => some (S₁, 0)

/-- A store of `b` by user code at `va`: the MMU lets it through a valid user entry that
is writable, and faults otherwise (`none`). -/
def mmuStore (S : VmState) (pgtab va : Nat) (b : UInt8) : Option VmState :=
  match S.pte pgtab (va / pageSize) with
  | some e =>
    if e.flags.write && e.flags.user then
      some { S with
        mem := Function.update S.mem e.addr (Function.update (S.mem e.addr) (va % pageSize) b) }
    else none
  | none => none

/-! ## Runs -/

/-- One call on user memory, on page tables of `tables`, that returns. -/
inductive VmStep (tables : Finset Nat) : VmState → VmState → Prop
  | alloc {S S' : VmState} {r : Int} (pgtab va n : Nat) (flags : VmFlags) (ht : pgtab ∈ tables)
      (h : vmUserAlloc S pgtab va n flags = some (S', r)) : VmStep tables S S'
  | free {S S' : VmState} (pgtab va n : Nat) (ht : pgtab ∈ tables)
      (h : vmUserFree S pgtab va n = some S') : VmStep tables S S'
  | clone {S S' : VmState} {r : Int} (src dst va n : Nat) (hs : src ∈ tables)
      (hd : dst ∈ tables) (h : vmUserClone S src dst va n false = some (S', r)) :
      VmStep tables S S'
  | fault {S S' : VmState} {r : Int} (pgtab va : Nat) (ht : pgtab ∈ tables)
      (h : vmHandleFault S pgtab va = some (S', r)) : VmStep tables S S'
  | copyOut {S S' : VmState} {r : Int} (pgtab : Nat) (src : Nat → UInt8) (va n : Nat)
      (ht : pgtab ∈ tables) (h : vmCopyOut S pgtab src va n = some (S', r)) :
      VmStep tables S S'
  | clear {S S' : VmState} {r : Int} (pgtab va n : Nat) (ht : pgtab ∈ tables)
      (h : vmClear S pgtab va n = some (S', r)) : VmStep tables S S'
  | checkBuf {S S' : VmState} {r : Int} (pgtab va n : Nat) (flags : VmFlags)
      (ht : pgtab ∈ tables) (h : vmUserCheckBuf S pgtab va n flags = some (S', r)) :
      VmStep tables S S'

/-- Boot: empty page tables, with `free` the pages the page allocator can hand out. -/
def vmBoot (free : List Nat) : VmState where
  pte := fun _ _ => none
  l1 := fun _ _ => false
  pages := fun _ => { slab := none, refCount := 0, debugTag := 0 }
  free := free
  mem := fun _ _ => 0

/-- The states reached from boot by calls on page tables of `tables`. -/
inductive VmReachable (tables : Finset Nat) (free : List Nat) : VmState → Prop
  | boot : VmReachable tables free (vmBoot free)
  | step {S S' : VmState} : VmReachable tables free S → VmStep tables S S' →
      VmReachable tables free S'

end Argentum.Mm
