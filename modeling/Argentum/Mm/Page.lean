import Argentum.Lib.Bitmap
import Argentum.Lib.AlignedBlock
import Mathlib.Algebra.BigOperators.Group.Finset.Basic

/-!
# Argentum.Mm.Page

The **physical page allocator** of `kernel/mm/page.c`: a binary buddy allocator over the
page descriptors `pages[0 .. page_count)`.

Free blocks of order `o` (`2 ^ o` pages, starting at a page index divisible by `2 ^ o`)
are kept twice, on the intrusive list `page_free_list[o].link` and as bit `idx / 2 ^ o`
of `page_free_list[o].bitmap`; `page_free_count` counts free pages. A page descriptor is
named by its index in `pages`, so the pointer arithmetic `page - pages` disappears and
`page + n` is index addition.

Every `k_assert` and `k_panic` of the allocator is a failure here: the operations return
`Option`, and `none` is a panic. The free lists are Lean lists, front first, so
`k_list_add_front` is `cons`, `k_list_remove` is `List.erase` and `link.next` of the head
is `List.head?`.

Not modelled (see `MODEL_MAP.json`): the `ref_count` and `debug_tag` fields of a page
descriptor, which the allocator only checks or stamps for its clients, the page contents
(`PAGE_ALLOC_ZERO`), and `boot_alloc`, whose only effect here is the start address of the
first free region.
-/

namespace Argentum.Mm

open AlignedBlock

/-- `PAGE_ORDER_MAX`: the largest block order. -/
def pageOrderMax : Nat := 10

/-- `PAGE_SIZE`. -/
def pageSize : Nat := 4096

/-- `BITS_PER_WORD`: the bitmaps are arrays of 32-bit `unsigned long` on both ports. -/
abbrev bitsPerWord : Nat := 32

/-- The physical memory layout of a port (`arch/memlayout.h`). -/
structure MemLayout where
  /-- `PHYS_ENTRY_LIMIT`: memory mapped by the boot page directory. -/
  physEntryLimit : Nat
  /-- `PHYS_LIMIT`: the end of managed physical memory. -/
  physLimit : Nat
  deriving Repr, DecidableEq

/-- The ARM layout (`arch/arm/include/arch/memlayout.h`). -/
def armMemLayout : MemLayout := { physEntryLimit := 0x01000000, physLimit := 0x10000000 }

/-- The i386 layout (`arch/i386/include/arch/memlayout.h`). -/
def i386MemLayout : MemLayout := { physEntryLimit := 0x00400000, physLimit := 0x10000000 }

/-- The allocator's global state. -/
structure PageState where
  /-- `page_count`. -/
  pageCount : Nat
  /-- `page_free_list[o].link`, front to back. -/
  freeList : Nat → List Nat
  /-- `page_free_list[o].bitmap`, word by word. -/
  bitmap : Nat → Nat → BitVec bitsPerWord
  /-- `page_free_count`. -/
  freeCount : Nat

namespace PageState

/-- Put the block at `p` on free list `o` and set its bit: the two stores of
`page_list_add`, without its assertions. -/
def push (s : PageState) (p o : Nat) : PageState :=
  { s with
    freeList := Function.update s.freeList o (p :: s.freeList o)
    bitmap := Function.update s.bitmap o (WordBitmap.set (s.bitmap o) (p / 2 ^ o)) }

/-- Take the block at `p` off free list `o` and clear its bit: the two stores of
`page_k_list_remove`, without its assertions. -/
def pull (s : PageState) (p o : Nat) : PageState :=
  { s with
    freeList := Function.update s.freeList o ((s.freeList o).erase p)
    bitmap := Function.update s.bitmap o (WordBitmap.clear (s.bitmap o) (p / 2 ^ o)) }

@[simp] theorem push_pageCount (s : PageState) (p o : Nat) :
    (s.push p o).pageCount = s.pageCount := rfl
@[simp] theorem push_freeCount (s : PageState) (p o : Nat) :
    (s.push p o).freeCount = s.freeCount := rfl
@[simp] theorem pull_pageCount (s : PageState) (p o : Nat) :
    (s.pull p o).pageCount = s.pageCount := rfl
@[simp] theorem pull_freeCount (s : PageState) (p o : Nat) :
    (s.pull p o).freeCount = s.freeCount := rfl

theorem push_freeList (s : PageState) (p o o' : Nat) :
    (s.push p o).freeList o' = if o' = o then p :: s.freeList o else s.freeList o' := by
  by_cases h : o' = o
  · subst h
    simp [push]
  · simp [push, h]

theorem pull_freeList (s : PageState) (p o o' : Nat) :
    (s.pull p o).freeList o' = if o' = o then (s.freeList o).erase p else s.freeList o' := by
  by_cases h : o' = o
  · subst h
    simp [pull]
  · simp [pull, h]

theorem push_bitmap (s : PageState) (p o o' : Nat) :
    (s.push p o).bitmap o' =
      if o' = o then WordBitmap.set (s.bitmap o) (p / 2 ^ o) else s.bitmap o' := by
  by_cases h : o' = o
  · subst h
    simp [push]
  · simp [push, h]

theorem pull_bitmap (s : PageState) (p o o' : Nat) :
    (s.pull p o).bitmap o' =
      if o' = o then WordBitmap.clear (s.bitmap o) (p / 2 ^ o) else s.bitmap o' := by
  by_cases h : o' = o
  · subst h
    simp [pull]
  · simp [pull, h]

end PageState

/-! ## The bitmap-and-list primitives -/

/-- `page_buddy`: the buddy of the order-`order` block at `page`. -/
def pageBuddy (page order : Nat) : Nat := buddy page order

/-- `page_list_contains`: the bitmap bit of the order-`order` block at `page`. -/
def pageListContains (s : PageState) (page order : Nat) : Bool :=
  WordBitmap.test (s.bitmap order) (page / 2 ^ order)

/-- `page_list_add`: both assertions, then the list and bitmap stores. -/
def pageListAdd (s : PageState) (page order : Nat) : Option PageState :=
  if page % 2 ^ order = 0 ∧ pageListContains s page order = false then
    some (s.push page order)
  else none

/-- `page_k_list_remove`: both assertions, then the list and bitmap stores. -/
def pageKListRemove (s : PageState) (page order : Nat) : Option PageState :=
  if page % 2 ^ order = 0 ∧ pageListContains s page order = true then
    some (s.pull page order)
  else none

/-! ## `page_alloc_block` -/

/-- The search loop of `page_alloc_block`: the first order from `order` up to
`PAGE_ORDER_MAX` whose free list is not empty. -/
def pageFindOrder (s : PageState) (order : Nat) : Option Nat :=
  (List.range' order (pageOrderMax + 1 - order)).find? fun o => !(s.freeList o).isEmpty

/-- The split loop of `page_alloc_block`, entered with the removed block of order `o`:
while `o > order`, the lower half goes back on free list `o - 1` and the upper half is
split further. Returns the state and the block finally handed out. -/
def pageSplit (s : PageState) (order page : Nat) : Nat → Option (PageState × Nat)
  | 0 => some (s, page)
  | o + 1 =>
    if order < o + 1 then do
      let s ← pageListAdd s page o
      pageSplit s order (page + 2 ^ o) o
    else some (s, page)

/-- `page_alloc_block(order)`: take the head of the first nonempty free list of order at
least `order`, charge `2 ^ order` pages to `page_free_count`, split the block down to
`order` and check that the result is not marked free. `none` when there is no such list
(the "out of memory" panic) or an assertion fails. -/
def pageAllocBlock (s : PageState) (order : Nat) : Option (PageState × Nat) := do
  let o ← pageFindOrder s order
  let page ← (s.freeList o).head?
  let s ← pageKListRemove s page o
  let s := { s with freeCount := s.freeCount - 2 ^ order }
  let (s, page) ← pageSplit s order page o
  if pageListContains s page order then none else some (s, page)

/-! ## `page_free_block` -/

/-- The merge loop of `page_free_block`: while `o < PAGE_ORDER_MAX` and the buddy is
free, take the buddy off its list and continue with the combined block, which starts at
the lower of the two. Returns the state and the block to put on a free list. -/
def pageMerge (s : PageState) (page o : Nat) : Option (PageState × Nat × Nat) :=
  if o < pageOrderMax then
    if pageListContains s (pageBuddy page o) o then do
      let s ← pageKListRemove s (pageBuddy page o) o
      pageMerge s (if pageBuddy page o < page then pageBuddy page o else page) (o + 1)
    else some (s, page, o)
  else some (s, page, o)
termination_by pageOrderMax - o

/-- `page_free_block(page, order)`: merge with free buddies, put the combined block on
its free list and give `2 ^ order` pages back to `page_free_count`. -/
def pageFreeBlock (s : PageState) (page order : Nat) : Option PageState := do
  let (s, page, o) ← pageMerge s page order
  let s ← pageListAdd s page o
  some { s with freeCount := s.freeCount + 2 ^ order }

/-! ## Initialisation -/

/-- The order search of `page_free_region`: from `PAGE_ORDER_MAX` down, the first order
whose block is aligned at `pageIdx` and ends by `lastPageIdx`; order `0` otherwise. -/
def pageRegionOrder (pageIdx lastPageIdx : Nat) : Nat → Nat
  | 0 => 0
  | o + 1 =>
    if pageIdx &&& (2 ^ (o + 1) - 1) = 0 ∧ pageIdx + 2 ^ (o + 1) ≤ lastPageIdx then o + 1
    else pageRegionOrder pageIdx lastPageIdx o

/-- The main loop of `page_free_region`, over page indices `[pageIdx, lastPageIdx)`. -/
def pageFreeRegionLoop (s : PageState) (pageIdx lastPageIdx : Nat) : Option PageState :=
  if pageIdx < lastPageIdx then do
    let s ← pageFreeBlock s pageIdx (pageRegionOrder pageIdx lastPageIdx pageOrderMax)
    pageFreeRegionLoop s (pageIdx + 2 ^ pageRegionOrder pageIdx lastPageIdx pageOrderMax)
      lastPageIdx
  else some s
termination_by lastPageIdx - pageIdx
decreasing_by
  have := Nat.two_pow_pos (pageRegionOrder pageIdx lastPageIdx pageOrderMax)
  omega

/-- `page_free_region(start, end)`: free the whole pages of the physical range. -/
def pageFreeRegion (s : PageState) (start stop : Nat) : Option PageState :=
  pageFreeRegionLoop s ((start + pageSize - 1) / pageSize) (stop / pageSize)

/-- The allocator before `page_init_low` frees anything: `page_count` set, every list
empty and every bitmap zero (`boot_alloc` clears what it hands out). -/
def pageEmpty (L : MemLayout) : PageState where
  pageCount := L.physLimit / pageSize
  freeList := fun _ => []
  bitmap := fun _ _ => 0
  freeCount := 0

/-- `page_init_low`: free the pages from the end of the boot allocations (`bootEnd`, the
physical address of `boot_alloc(0)`) to `PHYS_ENTRY_LIMIT`. -/
def pageInitLow (L : MemLayout) (bootEnd : Nat) : Option PageState :=
  pageFreeRegion (pageEmpty L) bootEnd L.physEntryLimit

/-- `page_init_high`: free the pages from `PHYS_ENTRY_LIMIT` to `PHYS_LIMIT`. -/
def pageInitHigh (L : MemLayout) (s : PageState) : Option PageState :=
  pageFreeRegion s L.physEntryLimit L.physLimit

/-! ## Runs of the allocator

The allocator does not record which blocks it has handed out; its clients do. A run
therefore carries the handed-out blocks as ghost state beside the allocator's own. -/

/-- The allocator state with the blocks handed out and not yet freed, as
`(page, order)`. -/
structure PageSys where
  state : PageState
  allocated : List (Nat × Nat)

/-- One call: `page_alloc_block(order)` that returns, or `page_free_block(page, order)` of a
block handed out with that same order. -/
inductive PageStep : PageSys → PageSys → Prop
  | alloc {S : PageSys} {s : PageState} {page : Nat} (order : Nat)
      (h : pageAllocBlock S.state order = some (s, page)) :
      PageStep S ⟨s, (page, order) :: S.allocated⟩
  | free {S : PageSys} {s : PageState} (page order : Nat) (hmem : (page, order) ∈ S.allocated)
      (h : pageFreeBlock S.state page order = some s) :
      PageStep S ⟨s, S.allocated.erase (page, order)⟩

/-- The states reached from `page_init_low` and `page_init_high` by any sequence of calls. -/
inductive PageReachable (L : MemLayout) (bootEnd : Nat) : PageSys → Prop
  | boot {s₀ s₁ : PageState} (hlow : pageInitLow L bootEnd = some s₀)
      (hhigh : pageInitHigh L s₀ = some s₁) : PageReachable L bootEnd ⟨s₁, []⟩
  | step {S S' : PageSys} : PageReachable L bootEnd S → PageStep S S' →
      PageReachable L bootEnd S'

end Argentum.Mm
