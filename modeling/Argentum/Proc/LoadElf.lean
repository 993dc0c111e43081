import Argentum.Mm.VmSpace

/-!
# Argentum.Proc.LoadElf

`load_elf` of `kernel/process/exec.c` and `vm_space_load_file` of `kernel/mm/vm.c`: the program
headers of an ELF file are read one by one, each `PT_LOAD` segment is mapped with `vmspace_map`
and its file bytes are read into the pages.

The file is an open regular file with its offset. `connection_seek` to a negative `off_t` fails
in `do_seek` and keeps the offset; `connection_read` returns the bytes from the offset on, fewer
at the end of the file. `off_t` and the header fields are the source's 32-bit values, and the
loop's offset is kept as its 32-bit pattern. `vmspace_map` takes an area from the pool for
program header `k` when `gotArea k`.

A read that comes back short is returned as it is: `vm_space_load_file` returns the count it
read, never a negative value but `-EFAULT` (`vmSpaceLoadFileLoop_result`), and `load_elf` returns
a short program-header read as its result. A file that ends inside its program-header table
then loads with result 0 and no entry point (`loadElf_table_past_end`), and a segment whose
bytes are past the end of the file loads with result 0 (`load_elf_accepts_short_files`).
-/

namespace Argentum.Proc

open Argentum.Mm

/-! ## The file -/

/-- An open regular file: its bytes and the offset of the next read. -/
structure OpenFile where
  bytes : List UInt8
  offset : Nat
  deriving DecidableEq, Repr

/-- A 32-bit pattern as the `off_t` it is converted to. -/
def toOffT (x : Nat) : Int := if x < 2 ^ 31 then x else (x : Int) - 2 ^ 32

/-- `connection_seek(file, off, SEEK_SET)`: `do_seek` refuses a negative offset. -/
def OpenFile.seek (f : OpenFile) (off : Int) : OpenFile :=
  if off < 0 then f else { f with offset := off.toNat }

/-- `connection_read(file, buf, n)`: the file after, and the bytes read. -/
def OpenFile.read (f : OpenFile) (n : Nat) : OpenFile × List UInt8 :=
  let bytes := (f.bytes.drop f.offset).take n
  ({ f with offset := f.offset + bytes.length }, bytes)

/-- The little-endian field of `n` bytes at `i`. -/
def leField (b : List UInt8) (i n : Nat) : Nat :=
  ((List.range n).map fun k => (b.getD (i + k) 0).toNat * 256 ^ k).sum

theorem leField_take {b : List UInt8} {m i n : Nat} (h : i + n ≤ m) :
    leField (b.take m) i n = leField b i n := by
  unfold leField
  congr 1
  apply List.map_congr_left
  intro k hk
  have hk : i + k < m := by
    rw [List.mem_range] at hk
    omega
  simp [List.getD_eq_getElem?_getD, hk]

/-- A read at or past the end of the file returns nothing. -/
theorem OpenFile.read_past_end {f : OpenFile} (h : f.bytes.length ≤ f.offset) (n : Nat) :
    (f.read n).2 = [] := by
  simp [OpenFile.read, List.drop_eq_nil_of_le h]

theorem OpenFile.offset_seek {x : Nat} (hx : x < 2 ^ 31) (f : OpenFile) :
    (f.seek (toOffT x)).offset = x := by
  have h : toOffT x = x := if_pos hx
  rw [h, OpenFile.seek, if_neg (by omega)]
  exact Int.toNat_natCast x

@[simp] theorem OpenFile.bytes_seek (f : OpenFile) (off : Int) : (f.seek off).bytes = f.bytes := by
  unfold OpenFile.seek
  split <;> rfl

@[simp] theorem OpenFile.bytes_read (f : OpenFile) (n : Nat) : (f.read n).1.bytes = f.bytes := rfl

/-! ## `vm_space_load_file` -/

/-- The loop of `vm_space_load_file`: page by page, the file's next bytes go to the page at
`dst`. The pages, the file, the result, and whether `vm_lock` is still held: the `-EFAULT` of an
unmapped page returns without releasing it. -/
def vmSpaceLoadFileLoop (S : VmState) (pgtab : Nat) (f : OpenFile) (dst n : Nat) :
    Option (VmState × OpenFile × Int × Bool) :=
  if n = 0 then some (S, f, 0, false)
  else
    match vmPageLookup S pgtab dst with
    | none => none
    | some none => some (S, f, -eFault, true)
    | some (some (page, _)) =>
      let offset := dst % pageSize
      let ncopy := min (pageSize - offset) n
      let r := f.read ncopy
      let S₁ := { S with
        mem := Function.update S.mem page
          (writeChunk (S.mem page) offset r.2.length fun i => r.2.getD i 0) }
      if r.2.length ≠ ncopy then some (S₁, r.1, r.2.length, false)
      else vmSpaceLoadFileLoop S₁ pgtab r.1 (dst + ncopy) (n - ncopy)
termination_by n
decreasing_by
  have : dst % pageSize < pageSize := Nat.mod_lt _ (by decide)
  omega

/-- `vm_space_load_file(pgtab, va, file, n, off)`. -/
def vmSpaceLoadFile (S : VmState) (pgtab : Nat) (va : Nat) (f : OpenFile) (n : Nat) (off : Int) :
    Option (VmState × OpenFile × Int × Bool) :=
  vmSpaceLoadFileLoop S pgtab (f.seek off) va n

/-! ## `load_elf` -/

/-- `"\x7fELF"`. -/
def elfMagic : List UInt8 := [0x7f, 0x45, 0x4c, 0x46]

/-- `PT_LOAD`. -/
def ptLoad : Nat := 1

/-- `sizeof(Elf32_Ehdr)`. -/
def ehdrSize : Nat := 52

/-- `sizeof(Elf32_Phdr)`. -/
def phdrSize : Nat := 32

/-- `PROT_READ | PROT_WRITE | PROT_EXEC | VM_USER`. -/
def segmentFlags : VmFlags := ⟨true, true, true, false, true, false, false⟩

/-- How the loop of `load_elf` ends: a `return r` from inside it (with whether `vm_lock` is
still held), or the loop condition. -/
inductive LoadStop
  | returned (r : Int) (lockHeld : Bool)
  | done
  deriving DecidableEq, Repr

/-- What one pass of `load_elf`'s loop does: `return` from `load_elf`, or go on with the address
space, the pages, the file and the next offset. -/
inductive LoadPass
  | returned (vm : VmSpace) (S : VmState) (f : OpenFile) (r : Int) (lockHeld : Bool)
  | next (vm : VmSpace) (S : VmState) (f : OpenFile) (off : Nat)

/-- One pass of `load_elf`'s loop at offset `off`: read a program header; map and read in a
`PT_LOAD` segment. -/
def loadElfPass (gotArea : Bool) (vm : VmSpace) (S : VmState) (f : OpenFile) (off : Nat) :
    Option LoadPass :=
  let r := (f.seek (toOffT off)).read phdrSize
  let ph := r.2
  if ph.length ≠ phdrSize then some (.returned vm S r.1 ph.length false)
  else
    let off := (off + phdrSize) % 2 ^ 32
    let offset := leField ph 4 4
    let vaddr := leField ph 8 4
    let filesz := leField ph 16 4
    let memsz := leField ph 20 4
    if leField ph 0 4 ≠ ptLoad then some (.next vm S r.1 off)
    else if filesz > memsz then some (.returned vm S r.1 (-eInval) false)
    else if virtKernelBase ≤ vaddr ∨ virtKernelBase < (vaddr + memsz) % 2 ^ 32 then
      some (.returned vm S r.1 (-eInval) false)
    else
      match vmspaceMap vm S vaddr memsz segmentFlags gotArea with
      | none => none
      | some (vm₁, S₁, a) =>
        if a ≠ vaddr then some (.returned vm₁ S₁ r.1 a false)
        else
          match vmSpaceLoadFile S₁ vm₁.pgtab vaddr r.1 filesz (toOffT offset) with
          | none => none
          | some (S₂, f₂, r₂, lock) =>
            if r₂ < 0 then some (.returned vm₁ S₂ f₂ r₂ lock) else some (.next vm₁ S₂ f₂ off)

/-- The loop of `load_elf` over the program headers: `k` counts the headers read, `off` is the
32-bit pattern of the `off_t` offset and `bound` that of `elf.phoff + elf.phnum * sizeof(ph)`.
Each pass takes one unit of `fuel`; `none` when it runs out. -/
def loadElfLoop (gotArea : Nat → Bool) (bound : Nat) :
    Nat → VmSpace → VmState → OpenFile → Nat → Nat →
      Option (VmSpace × VmState × OpenFile × LoadStop)
  | 0, _, _, _, _, _ => none
  | fuel + 1, vm, S, f, k, off =>
    if off < bound then
      match loadElfPass (gotArea k) vm S f off with
      | none => none
      | some (.returned vm S f r lock) => some (vm, S, f, .returned r lock)
      | some (.next vm S f off) => loadElfLoop gotArea bound fuel vm S f (k + 1) off
    else some (vm, S, f, .done)

/-- `load_elf(ctx)`: the address space, the pages and the file after it, the result, whether
`vm_lock` is still held, and `ctx->entry_va` when it is set. -/
def loadElf (vm : VmSpace) (S : VmState) (f : OpenFile) (gotArea : Nat → Bool) (fuel : Nat) :
    Option (VmSpace × VmState × OpenFile × Int × Bool × Option Nat) :=
  let r := (f.seek 0).read ehdrSize
  let elf := r.2
  if elf.length ≠ ehdrSize then some (vm, S, r.1, -eInval, false, none)
  else if elf.take 4 ≠ elfMagic then some (vm, S, r.1, -eInval, false, none)
  else
    let phoff := leField elf 28 4
    let bound := (phoff + leField elf 44 2 * phdrSize) % 2 ^ 32
    (loadElfLoop gotArea bound fuel vm S r.1 0 phoff).map fun x =>
      match x.2.2.2 with
      | .returned r lock => (x.1, x.2.1, x.2.2.1, r, lock, none)
      | .done => (x.1, x.2.1, x.2.2.1, 0, false, some (leField elf 24 4))

/-! ## Fuel -/

/-- A loop that ended with some fuel ends the same way with more. -/
theorem loadElfLoop_add {gotArea : Nat → Bool} {bound : Nat} (m : Nat) :
    ∀ {fuel : Nat} {vm : VmSpace} {S : VmState} {f : OpenFile} {k off : Nat}
      {x : VmSpace × VmState × OpenFile × LoadStop},
      loadElfLoop gotArea bound fuel vm S f k off = some x →
        loadElfLoop gotArea bound (fuel + m) vm S f k off = some x := by
  intro fuel
  induction fuel with
  | zero =>
    intro vm S f k off x h
    cases h
  | succ fuel ih =>
    intro vm S f k off x h
    rw [Nat.add_right_comm, loadElfLoop]
    rw [loadElfLoop] at h
    split at h
    · rename_i hlt
      rw [if_pos hlt]
      -- the same pass (`split` reads it in both), then the rest of the loop with more fuel
      split at h
      · cases h
      · exact h
      · exact ih h
    · rename_i hge
      rw [if_neg hge]
      exact h

theorem loadElf_add {vm : VmSpace} {S : VmState} {f : OpenFile} {gotArea : Nat → Bool}
    {fuel : Nat} (m : Nat) {y : VmSpace × VmState × OpenFile × Int × Bool × Option Nat}
    (h : loadElf vm S f gotArea fuel = some y) : loadElf vm S f gotArea (fuel + m) = some y := by
  unfold loadElf at h ⊢
  dsimp only at h ⊢
  split_ifs at h ⊢
  · exact h
  · exact h
  · obtain ⟨x, hx, rfl⟩ := Option.map_eq_some_iff.mp h
    rw [loadElfLoop_add m hx]
    rfl

/-! ## A short read is not an error -/

/-- What `vm_space_load_file`'s loop returns: `-EFAULT` with `vm_lock` held, or a count that is
never negative, the bytes of a short read or 0. -/
theorem vmSpaceLoadFileLoop_result {S S' : VmState} {pgtab dst n : Nat} {f f' : OpenFile}
    {r : Int} {lock : Bool} (h : vmSpaceLoadFileLoop S pgtab f dst n = some (S', f', r, lock)) :
    (r = -eFault ∧ lock = true) ∨ (0 ≤ r ∧ lock = false) := by
  revert h
  fun_induction vmSpaceLoadFileLoop S pgtab f dst n with
  | case1 =>
    intro h
    cases h
    exact .inr ⟨le_refl 0, rfl⟩
  | case2 =>
    intro h
    cases h
  | case3 =>
    intro h
    cases h
    exact .inl ⟨rfl, rfl⟩
  | case4 =>
    -- a short read: the count read, which `load_elf` does not see as an error
    intro h
    simp only [Option.some.injEq, Prod.mk.injEq] at h
    obtain ⟨-, -, rfl, rfl⟩ := h
    exact .inr ⟨Int.natCast_nonneg _, rfl⟩
  | case5 =>
    rename_i ih
    exact ih

/-! ## A file shorter than its headers -/

/-- A file that ends inside its program-header table: the first read of a program header comes
back empty, and `load_elf` returns that count, 0, as success, with nothing mapped and no entry
point set. -/
theorem loadElf_table_past_end {vm : VmSpace} {S : VmState} {f : OpenFile}
    (gotArea : Nat → Bool) (hlen : ehdrSize ≤ f.bytes.length) (hmagic : f.bytes.take 4 = elfMagic)
    (hoff : f.bytes.length ≤ leField f.bytes 28 4) (hoff' : leField f.bytes 28 4 < 2 ^ 31)
    (hnum : 0 < leField f.bytes 44 2)
    (hbound : leField f.bytes 28 4 + leField f.bytes 44 2 * phdrSize < 2 ^ 32) (fuel : Nat) :
    ∃ f', loadElf vm S f gotArea (fuel + 1) = some (vm, S, f', 0, false, none) := by
  -- the header is the file's first 52 bytes
  have helf : ((f.seek 0).read ehdrSize).2 = f.bytes.take ehdrSize := by
    simp [OpenFile.seek, OpenFile.read]
  have hlen' : (f.bytes.take ehdrSize).length = ehdrSize := by
    simp [hlen]
  have hmagic' : (f.bytes.take ehdrSize).take 4 = elfMagic := by
    rw [List.take_take]
    simpa [ehdrSize] using hmagic
  have h28 : leField (f.bytes.take ehdrSize) 28 4 = leField f.bytes 28 4 :=
    leField_take (by decide)
  have h44 : leField (f.bytes.take ehdrSize) 44 2 = leField f.bytes 44 2 :=
    leField_take (by decide)
  -- the first pass of the loop: its read starts past the end of the file
  have hpass : ∀ f₁ : OpenFile, f₁.bytes = f.bytes →
      loadElfLoop gotArea ((leField f.bytes 28 4 + leField f.bytes 44 2 * phdrSize) % 2 ^ 32)
          (fuel + 1) vm S f₁ 0 (leField f.bytes 28 4) =
        some (vm, S, ((f₁.seek (toOffT (leField f.bytes 28 4))).read phdrSize).1,
          .returned 0 false) := by
    intro f₁ hf₁
    have hlt : leField f.bytes 28 4 <
        (leField f.bytes 28 4 + leField f.bytes 44 2 * phdrSize) % 2 ^ 32 := by
      rw [Nat.mod_eq_of_lt hbound]
      simp only [phdrSize]
      omega
    have hempty : ((f₁.seek (toOffT (leField f.bytes 28 4))).read phdrSize).2 = [] := by
      apply OpenFile.read_past_end
      rw [OpenFile.offset_seek hoff', OpenFile.bytes_seek, hf₁]
      exact hoff
    have hfirst : loadElfPass (gotArea 0) vm S f₁ (leField f.bytes 28 4) =
        some (.returned vm S ((f₁.seek (toOffT (leField f.bytes 28 4))).read phdrSize).1 0
          false) := by
      unfold loadElfPass
      dsimp only
      rw [hempty, if_pos (by simp [phdrSize])]
      rfl
    rw [loadElfLoop, if_pos hlt, hfirst]
  obtain ⟨f₁, hf₁⟩ : ∃ f₁, f₁ = ((f.seek 0).read ehdrSize).1 := ⟨_, rfl⟩
  refine ⟨((f₁.seek (toOffT (leField f.bytes 28 4))).read phdrSize).1, ?_⟩
  have hpass₁ := hpass f₁ (by simp [hf₁])
  simp only [loadElf, helf, hlen', hmagic', h28, h44, ne_eq, not_true_eq_false, if_false]
  rw [← hf₁, hpass₁]
  rfl

/-! ## Segments past the end of the file -/

/-- The four bytes of a 32-bit field, little-endian. -/
def leWord (x : Nat) : List UInt8 := (List.range 4).map fun k => (x / 256 ^ k % 256).toUInt8

/-- An image of 84 bytes: its header, with entry point 0x1000 and one program header at offset
52, and that header, a `PT_LOAD` of 0x100 bytes at `vaddr` from file offset 0x1000, which is past
the end of the file. -/
def shortImage (vaddr : Nat) : OpenFile :=
  ⟨elfMagic ++ List.replicate 20 0 ++ leWord 0x1000 ++ leWord ehdrSize ++ List.replicate 12 0 ++
    [1, 0] ++ List.replicate 6 0 ++ leWord ptLoad ++ leWord 0x1000 ++ leWord vaddr ++ leWord 0 ++
    leWord 0x100 ++ leWord 0x100 ++ List.replicate 8 0, 0⟩

/-- `load_elf` is neither exact nor confined to negative errors: every read of
`vm_space_load_file` that comes back short counts as success; a file that ends inside its
program-header table loads with result 0 and no entry point; a segment whose bytes are not in
the file loads with result 0 and the entry point set; and a segment at an address that is not
page aligned returns the address `vmspace_map` rounded it up to, a positive value. -/
theorem load_elf_accepts_short_files :
    (∀ (S S' : VmState) (pgtab va n : Nat) (f f' : OpenFile) (off r : Int) (lock : Bool),
      vmSpaceLoadFile S pgtab va f n off = some (S', f', r, lock) →
        (r = -eFault ∧ lock = true) ∨ (0 ≤ r ∧ lock = false)) ∧
    (∀ (vm : VmSpace) (S : VmState) (f : OpenFile) (gotArea : Nat → Bool) (fuel : Nat),
      ehdrSize ≤ f.bytes.length → f.bytes.take 4 = elfMagic →
      f.bytes.length ≤ leField f.bytes 28 4 → leField f.bytes 28 4 < 2 ^ 31 →
      0 < leField f.bytes 44 2 → leField f.bytes 28 4 + leField f.bytes 44 2 * phdrSize < 2 ^ 32 →
        ∃ f', loadElf vm S f gotArea (fuel + 1) = some (vm, S, f', 0, false, none)) ∧
    (∀ fuel, 2 ≤ fuel →
      (loadElf ⟨0, []⟩ (vmBoot [5, 6, 7]) (shortImage 0x1000) (fun _ => true) fuel).map
        (fun x => (x.2.2.2.1, x.2.2.2.2)) = some (0, false, some 0x1000)) ∧
    (∀ fuel, 2 ≤ fuel →
      (loadElf ⟨0, []⟩ (vmBoot [5, 6, 7]) (shortImage 0x1001) (fun _ => true) fuel).map
        (fun x => (x.2.2.2.1, x.2.2.2.2)) = some (0x2000, false, none)) := by
  -- a run with fuel 2 is the run with any more fuel
  have hrun : ∀ {vaddr : Nat} {z : Int × Bool × Option Nat},
      (loadElf ⟨0, []⟩ (vmBoot [5, 6, 7]) (shortImage vaddr) (fun _ => true) 2).map
        (fun x => (x.2.2.2.1, x.2.2.2.2)) = some z →
      ∀ fuel, 2 ≤ fuel →
        (loadElf ⟨0, []⟩ (vmBoot [5, 6, 7]) (shortImage vaddr) (fun _ => true) fuel).map
          (fun x => (x.2.2.2.1, x.2.2.2.2)) = some z := by
    intro vaddr z h fuel hfuel
    obtain ⟨y, hy, rfl⟩ := Option.map_eq_some_iff.mp h
    obtain ⟨m, rfl⟩ := Nat.exists_eq_add_of_le hfuel
    rw [loadElf_add m hy]
    rfl
  refine ⟨?_, ?_, hrun (by decide +kernel), hrun (by decide +kernel)⟩
  · intro S S' pgtab va n f f' off r lock h
    exact vmSpaceLoadFileLoop_result h
  · intro vm S f gotArea fuel hlen hmagic hoff hoff' hnum hbound
    exact loadElf_table_past_end gotArea hlen hmagic hoff hoff' hnum hbound fuel

end Argentum.Proc
