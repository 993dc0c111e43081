import Argentum.Proc.LoadElf
import Argentum.Proc.Signal
import Argentum.Net.Connection

/-!
# Argentum.Proc.Exec

`process_exec` of `kernel/process/exec.c` with the stages it runs: `copy_in_args` (over
`vm_user_check_args` and `vm_user_check_str` of `kernel/mm/vm.c`), `user_stack_init`,
`resolve` with `resolve_file`, `user_stack_finalize` and `load_elf`, and the commit that gives
the calling process its new address space.

`ctx.argv` and `ctx.envp` are blocks of `k_malloc(sizeof ctx.argv[0] * VEC_MAX + 1)` bytes,
which hold 255 slots (`SlotArray`); a load or store outside them is `none`, as is any other use
of memory the code does not own or has not set. A C string is kept as its bytes before the NUL.

The environment is what the model does not compute: whether memory is left (`k_malloc`
returns `NULL` only above `ANON_POOLS_MAX_SIZE`, `kMallocOk`, and panics when memory runs out),
the address space `vm_space_create` gives, whether `vmspace_map` gets an area, the files `fs_open`
opens, the value of an unset `r`, and what `arch_trap_frame_init` returns. `vm_space_destroy` is not
modelled, so the pages of a failed exec's address space stay allocated.

Every failure of `process_exec` comes before its commit: a call that does not return the value
of `arch_trap_frame_init` leaves the caller's address space, descriptor table and signal state
as they were (`processExec_atomic`). What it returns on failure is not always a negative error,
and its vectors are not kept inside their slots (`process_exec_mishandles_arguments`).
-/

namespace Argentum.Proc

open Argentum.Mm

/-! ## Constants -/

/-- `E2BIG`. -/
def e2Big : Int := 7

/-- `ENOENT`. -/
def eNoEnt : Int := 2

/-- `EPERM`. -/
def ePerm : Int := 1

/-- `ARG_MAX`. -/
def argMax : Nat := 4096

/-- `VEC_MAX`. -/
def vecMax : Nat := 255

/-- `USTACK_SIZE` (ARM). -/
def ustackSize : Nat := pageSize * 16

/-- `STACK_BOTTOM`: `VIRT_USTACK_TOP - USTACK_SIZE`, with `VIRT_USTACK_TOP` at
`VIRT_KERNEL_BASE`. -/
def stackBottom : Nat := virtKernelBase - ustackSize

/-- `STACK_PROT`: `PROT_READ | PROT_WRITE | VM_USER`. -/
def stackProt : VmFlags := ⟨true, true, false, false, true, false, false⟩

/-- `VM_READ | VM_USER`. -/
def userRead : VmFlags := ⟨true, false, false, false, true, false, false⟩

/-- `S_IFMT`. -/
def sIfMt : Nat := 0o170000

/-- `S_IFREG`. -/
def sIfReg : Nat := 0o100000

/-- `S_IXUSR | S_IXGRP | S_IXOTH`. -/
def sIxAll : Nat := 0o111

/-! ## `vm.c`: user strings and vectors -/

/-- The pointer stored at byte `i` of a page, little-endian. -/
def pageWord (m : Nat → UInt8) (i : Nat) : Nat :=
  ((List.range 4).map fun k => (m (i + k)).toNat * 256 ^ k).sum

/-- The inner loop of the user checks on one page: from element `off`, with `n` elements left in
the page, the number of elements before the first one that `isEnd` holds of, or `none` when the
page ends first. -/
def scanPage (isEnd : Nat → Bool) (off : Nat) : Nat → Option Nat
  | 0 => none
  | n + 1 => if isEnd off then some 0 else (scanPage isEnd (off + 1) n).map (· + 1)

/-- The loop that `vm_user_check_str` and `vm_user_check_args` share: page by page from `va`,
each page looked up and its flags checked, its elements of `size` bytes scanned until `isEnd`
holds of the bytes at one; `len` counts the elements before it. -/
def vmUserCheckLoop (S : VmState) (pgtab : Nat) (flags : VmFlags) (size : Nat)
    (hsize : size ∣ pageSize) (isEnd : (Nat → UInt8) → Nat → Bool) (va len : Nat) :
    Option (Except Int Nat) :=
  if va < virtKernelBase then
    match vmPageLookup S pgtab va with
    | none => none
    | some none => some (.error (-eFault))
    | some (some (page, curr)) =>
      if !vmFlagsCheck curr flags then some (.error (-eFault))
      else
        let off := va % pageSize / size
        let count := pageSize / size - off
        match scanPage (fun o => isEnd (S.mem page) (size * o)) off count with
        | some k => some (.ok (len + k))
        | none => vmUserCheckLoop S pgtab flags size hsize isEnd (va + size * count) (len + count)
  else some (.error (-eFault))
termination_by virtKernelBase - va
decreasing_by
  have hpos : 0 < size := Nat.pos_of_dvd_of_pos hsize (by decide)
  have hoff : va % pageSize / size < pageSize / size :=
    Nat.div_lt_div_of_lt_of_dvd hsize (Nat.mod_lt _ (by decide))
  have : 0 < size * (pageSize / size - va % pageSize / size) :=
    Nat.mul_pos hpos (by omega)
  omega

/-- `vm_user_check_str(pgtab, va, &len, flags)`: the bytes before the NUL. -/
def vmUserCheckStr (S : VmState) (pgtab va : Nat) (flags : VmFlags) : Option (Except Int Nat) :=
  vmUserCheckLoop S pgtab flags 1 (one_dvd _) (fun m i => m i == 0) va 0

/-- `vm_user_check_args(pgtab, va, &len, flags)`: the pointers before the `NULL`. -/
def vmUserCheckArgs (S : VmState) (pgtab va : Nat) (flags : VmFlags) : Option (Except Int Nat) :=
  if va % 4 ≠ 0 then some (.error (-eFault))
  else vmUserCheckLoop S pgtab flags 4 (by decide) (fun m i => pageWord m i == 0) va 0

/-! ## `copy_in_args` -/

/-- The part of a pass of `copy_in_args`'s loop after the pointer `strVa` is read: the string
it points to is checked, counted into `total` and copied. The new count and the string, or the
error. `mem` is whether memory is left for `k_malloc`. -/
def copyInString (S : VmState) (pgtab : Nat) (mem : Bool) (total strVa : Nat) :
    Option (Except Int (Nat × List UInt8)) :=
  match vmUserCheckStr S pgtab strVa userRead with
  | none => none
  | some (.error r) => some (.error r)
  | some (.ok strLen) =>
    if total + strLen + 1 > argMax then some (.error (-e2Big))
    else
      match kMallocOk mem (strLen + 1) with
      | none => none
      | some false => some (.error (-eNoMem))
      | some true =>
        match vmCopyIn S pgtab strVa (strLen + 1) with
        | none => none
        | some (.error _) => some (.error (-eFault))
        | some (.ok s) =>
          if s.getD strLen 0 ≠ 0 then some (.error (-eFault))
          else some (.ok (total + strLen + 1, s.take strLen))

/-- One pass of `copy_in_args`'s loop, for string `i` of the vector at `va` with `total` bytes
counted so far. -/
def copyInArg (S : VmState) (pgtab va : Nat) (mem : Bool) (i total : Nat) :
    Option (Except Int (Nat × List UInt8)) :=
  match vmCopyIn S pgtab (va + 4 * i) 4 with
  | none => none
  | some (.error r) => some (.error r)
  | some (.ok w) => copyInString S pgtab mem total (leField w 0 4)

/-- The loop of `copy_in_args` from string `i` on, `n` strings left, `total` bytes counted, and
the strings copied so far: the result, and the strings when `*store` is set. -/
def copyInArgsLoop (S : VmState) (pgtab va : Nat) (mem : Bool) :
    Nat → Nat → Nat → List (List UInt8) → Option (Int × Option (List (List UInt8)))
  | 0, _, _, args => some (0, some args)
  | n + 1, i, total, args =>
    match copyInArg S pgtab va mem i total with
    | none => none
    | some (.error r) => some (r, none)
    | some (.ok (total, s)) => copyInArgsLoop S pgtab va mem n (i + 1) total (args ++ [s])

/-- `copy_in_args(va, &store)` on the calling process's page table `pgtab`. When
`vm_user_check_args` fails the code returns `r` before it sets it: `garbage` is that value. -/
def copyInArgs (S : VmState) (pgtab va : Nat) (mem : Bool) (garbage : Int) :
    Option (Int × Option (List (List UInt8))) :=
  match vmUserCheckArgs S pgtab va userRead with
  | none => none
  | some (.error _) => some (garbage, none)
  | some (.ok len) =>
    let total := (len + 1) * 4
    if total > argMax then some (-e2Big, none)
    else
      match kMallocOk mem total with
      | none => none
      | some false => some (-eNoMem, none)
      | some true => copyInArgsLoop S pgtab va mem len 0 total []

/-! ## The argument vectors -/

/-- The `uintptr_t` slots of a block of `sizeof ctx.argv[0] * VEC_MAX + 1` bytes. -/
def vecSlots : Nat := (4 * vecMax + 1) / 4

/-- `ctx.argv` or `ctx.envp`: the slots of its block. -/
structure SlotArray where
  slots : List Nat
  length_eq : slots.length = vecSlots

/-- A block as `k_malloc` returns it; its contents are never read before they are set. -/
def SlotArray.fresh : SlotArray := ⟨List.replicate vecSlots 0, List.length_replicate⟩

/-- `a[i]`: `none` outside the block. -/
def SlotArray.load (a : SlotArray) (i : Nat) : Option Nat := a.slots[i]?

/-- `a[i] = x`: `none` outside the block. -/
def SlotArray.store (a : SlotArray) (i x : Nat) : Option SlotArray :=
  if i < vecSlots then some ⟨a.slots.set i x, by rw [List.length_set, a.length_eq]⟩ else none

/-! ## The user stack -/

/-- `user_stack_put(vm, buf, n, &va)` with the `n` bytes `buf`: the pages, and the result with
the new `*va_p`, which is set only on success. -/
def userStackPut (S : VmState) (pgtab : Nat) (buf : List UInt8) (va : Nat) :
    Option (VmState × Except Int Nat) :=
  let va := roundDown ((va + 2 ^ 32 - buf.length) % 2 ^ 32) 4
  if va < stackBottom then some (S, .error (-e2Big))
  else
    match vmCopyOut S pgtab (fun i => buf.getD i 0) va buf.length with
    | none => none
    | some (S₁, r) => if r < 0 then some (S₁, .error r) else some (S₁, .ok va)

/-- `user_stack_put_string(vm, s, &va)`: the string and its NUL. -/
def userStackPutString (S : VmState) (pgtab : Nat) (s : List UInt8) (va : Nat) :
    Option (VmState × Except Int Nat) :=
  userStackPut S pgtab (s ++ [0]) va

/-- A way to put one string on the stack: `user_stack_put_string` on a page table. -/
abbrev StringPut := VmState → List UInt8 → Nat → Option (VmState × Except Int Nat)

/-- The loop of `user_stack_put_strings(vm, args, args_va, &va, &argc)` from `args[i]` on, each
string put by `put`: the pages, the slots, and the result with `va` and `i` at the `NULL` that
ends `args`, which are stored in `*va_p` and `*argc_p` only on success. -/
def userStackPutStringsLoop (put : StringPut) :
    List (List UInt8) → VmState → SlotArray → Nat → Nat →
      Option (VmState × SlotArray × Except Int (Nat × Nat))
  | [], S, a, va, i => (a.store i 0).map fun a => (S, a, .ok (va, i))
  | s :: rest, S, a, va, i =>
    if i > vecMax then some (S, a, .error (-e2Big))
    else
      match put S s va with
      | none => none
      | some (S₁, .error r) => some (S₁, a, .error r)
      | some (S₁, .ok va₁) =>
        match a.store i va₁ with
        | none => none
        | some a₁ => userStackPutStringsLoop put rest S₁ a₁ va₁ (i + 1)

/-- `user_stack_put_strings(vm, args, args_va, &va, &argc)`. -/
def userStackPutStrings (S : VmState) (pgtab : Nat) (args : List (List UInt8)) (a : SlotArray)
    (va : Nat) : Option (VmState × SlotArray × Except Int (Nat × Nat)) :=
  userStackPutStringsLoop (fun S s va => userStackPutString S pgtab s va) args S a va 0

/-- `user_stack_put_vector(vm, vec, count, &va)`: the slots `vec[0 .. count]`. -/
def userStackPutVector (S : VmState) (pgtab : Nat) (vec : SlotArray) (count va : Nat) :
    Option (VmState × Except Int Nat) :=
  -- the copy reads `count + 1` slots of the block
  if vecSlots < count + 1 then none
  else userStackPut S pgtab ((vec.slots.take (count + 1)).flatMap leWord) va

/-- The fields of `struct ExecContext` that the stages hand on; the others are the results of
`user_stack_finalize` and `load_elf`. -/
structure ExecContext where
  vm : VmSpace
  argv : SlotArray
  argc : Nat
  envp : SlotArray
  envc : Nat
  spVa : Nat

/-- `user_stack_init(argv, envp, e)`: the stack mapped, the environment strings and then the
argument strings put on it. `gotArea` is whether `vmspace_map` gets an area. -/
def userStackInit (S : VmState) (e : ExecContext) (gotArea : Bool)
    (argv envp : List (List UInt8)) : Option (VmState × ExecContext × Int) :=
  match vmspaceMap e.vm S stackBottom ustackSize stackProt gotArea with
  | none => none
  | some (vm, S₁, va) =>
    let e := { e with vm }
    if va ≠ stackBottom then some (S₁, e, va)
    else
      match userStackPutStrings S₁ vm.pgtab envp e.envp virtKernelBase with
      | none => none
      | some (S₂, envpSlots, .error r) => some (S₂, { e with envp := envpSlots }, r)
      | some (S₂, envpSlots, .ok (va, envc)) =>
        let e := { e with envp := envpSlots, envc }
        match userStackPutStrings S₂ vm.pgtab argv e.argv va with
        | none => none
        | some (S₃, argvSlots, .error r) => some (S₃, { e with argv := argvSlots }, r)
        | some (S₃, argvSlots, .ok (va, argc)) =>
          some (S₃, { e with argv := argvSlots, argc, spVa := va }, 0)

/-- `user_stack_finalize(ctx)`: the pages, and the result with `env_va`, `argv_va` and the
final `sp_va`. -/
def userStackFinalize (S : VmState) (e : ExecContext) :
    Option (VmState × Except Int (Nat × Nat × Nat)) :=
  match userStackPutVector S e.vm.pgtab e.envp e.envc e.spVa with
  | none => none
  | some (S₁, .error r) => some (S₁, .error r)
  | some (S₁, .ok envVa) =>
    match userStackPutVector S₁ e.vm.pgtab e.argv e.argc envVa with
    | none => none
    | some (S₂, .error r) => some (S₂, .error r)
    | some (S₂, .ok argvVa) => some (S₂, .ok (envVa, argvVa, roundDown argvVa 8))

/-! ## `resolve` -/

/-- A file `fs_open` opens: what `connection_stat` returns on it (an error or `st_mode`), and the
file. -/
structure ExecFile where
  stat : Except Int Nat
  file : OpenFile

/-- The first index from `i` on, below `r`, whose byte `stop` holds of; `r` when there is none. -/
def scanBuf (buf : List UInt8) (stop : UInt8 → Bool) (r : Nat) : Nat → Nat
  | i => if h : i < r then (if stop (buf.getD i 0) then i else scanBuf buf stop r (i + 1)) else r
termination_by i => r - i

/-- The `#!` line of the first bytes `buf` of a file: the interpreter it names, and the index of
the NUL that `resolve_file` writes after the name; `none` when there is no interpreter. -/
def shebang (buf : List UInt8) : Option (List UInt8 × Nat) :=
  let r := buf.length
  if r < 3 ∨ buf.getD 0 0 ≠ 0x23 ∨ buf.getD 1 0 ≠ 0x21 then none
  else
    let start := scanBuf buf (fun c => c ≠ 0x20 ∧ c ≠ 0x09) r 2
    if start = r ∨ buf.getD start 0 = 0x0a then none
    else
      let i := scanBuf buf (fun c => c = 0x20 ∨ c = 0x09 ∨ c = 0x0a) r start
      -- `strlen(&buf[start])` stops at a NUL inside the name
      some (((buf.drop start).take (i - start)).takeWhile (· ≠ 0), i)

/-- `for (i = ctx->argc; i > 0; i--) ctx->argv[i + 1] = ctx->argv[i];` -/
def shiftArgs (a : SlotArray) : Nat → Option SlotArray
  | 0 => some a
  | i + 1 => do
    let x ← a.load (i + 1)
    let a ← a.store (i + 2) x
    shiftArgs a i

/-- The end of `resolve_file` once the `#!` line names `name`: the script `p` goes on the stack
and becomes `argv[1]`, the arguments after `argv[0]` move up a slot, and the name is copied. -/
def resolveFileInsert (S : VmState) (e : ExecContext) (p name : List UInt8)
    (mem : Bool) : Option (VmState × ExecContext × Except Int (Option (List UInt8))) :=
  if e.argc > vecMax then some (S, e, .error (-e2Big))
  else
    match userStackPutString S e.vm.pgtab p e.spVa with
    | none => none
    | some (S₁, .error r) => some (S₁, e, .error r)
    | some (S₁, .ok sp) =>
      match shiftArgs e.argv e.argc with
      | none => none
      | some argv =>
        match argv.store 1 sp with
        | none => none
        | some argv =>
          let e := { e with argv, argc := e.argc + 1, spVa := sp }
          match kMallocOk mem (name.length + 1) with
          | none => none
          | some false => some (S₁, e, .error (-eNoMem))
          | some true => some (S₁, e, .ok (some name))

/-- `resolve_file(file, p, ctx, &pp)`: the pages, the context, the file after its first read,
and the result with `*pp`, the interpreter that a `#!` line names. -/
def resolveFile (S : VmState) (e : ExecContext) (f : ExecFile) (p : List UInt8)
    (mem : Bool) :
    Option (VmState × ExecContext × OpenFile × Except Int (Option (List UInt8))) :=
  match f.stat with
  | .error r => some (S, e, f.file, .error r)
  | .ok mode =>
    if mode &&& sIfMt ≠ sIfReg then some (S, e, f.file, .error (-eNoEnt))
    else if mode &&& sIxAll = 0 then some (S, e, f.file, .error (-ePerm))
    else
      let rd := (f.file.seek 0).read 1024
      match shebang rd.2 with
      | none => some (S, e, rd.1, .ok none)
      | some (name, i) =>
        -- `buf[i] = '\0'` is past `char buf[1024]` when the name runs to its end
        if 1024 ≤ i then none
        else (resolveFileInsert S e p name mem).map fun x => (x.1, x.2.1, rd.1, x.2.2)

/-- A `#!` line makes one more argument, from at most `VEC_MAX`: what bounds `resolve`'s loop. -/
theorem resolveFileInsert_argc {S S₁ : VmState} {e e₁ : ExecContext} {p name name' : List UInt8}
    {mem : Bool}
    (h : resolveFileInsert S e p name mem = some (S₁, e₁, .ok (some name'))) :
    e.argc ≤ vecMax ∧ e₁.argc = e.argc + 1 := by
  unfold resolveFileInsert at h
  by_cases hargc : e.argc > vecMax
  · rw [if_pos hargc] at h
    cases h
  · rw [if_neg hargc] at h
    refine ⟨Nat.le_of_not_gt hargc, ?_⟩
    -- the stack put, the shift and the store of `argv[1]` all succeed
    split at h
    · cases h
    · cases h
    · split at h
      · cases h
      · split at h
        · cases h
        · dsimp only at h
          split at h
          · cases h
          · cases h
          · cases h
            rfl

theorem resolveFile_argc {S S₁ : VmState} {e e₁ : ExecContext} {f : ExecFile} {p : List UInt8}
    {mem : Bool} {file : OpenFile} {name : List UInt8}
    (h : resolveFile S e f p mem = some (S₁, e₁, file, .ok (some name))) :
    e.argc ≤ vecMax ∧ e₁.argc = e.argc + 1 := by
  unfold resolveFile at h
  split at h
  · cases h
  · split_ifs at h
    · cases h
    · cases h
    · dsimp only at h
      split at h
      · cases h
      · split_ifs at h
        obtain ⟨⟨S₂, e₂, r⟩, hins, hx⟩ := Option.map_eq_some_iff.mp h
        cases hx
        exact resolveFileInsert_argc hins

/-- The loop of `resolve(path, ctx)` at the file `p`: open it, and go on with the interpreter its
`#!` line names. The pages, the context, and the result with the file that `ctx->file` gets.
`fsOpen` is what `fs_open` gives. -/
def resolveLoop (fsOpen : List UInt8 → Except Int ExecFile) (mem : Bool)
    (S : VmState) (e : ExecContext) (p : List UInt8) :
    Option (VmState × ExecContext × Except Int OpenFile) :=
  match fsOpen p with
  | .error r => some (S, e, .error r)
  | .ok f =>
    match _h : resolveFile S e f p mem with
    | none => none
    | some (S₁, e₁, _, .error r) => some (S₁, e₁, .error r)
    | some (S₁, e₁, file, .ok none) => some (S₁, e₁, .ok file)
    | some (S₁, e₁, _, .ok (some interp)) => resolveLoop fsOpen mem S₁ e₁ interp
termination_by vecMax + 1 - e.argc
decreasing_by
  obtain ⟨hle, heq⟩ := resolveFile_argc _h
  omega

/-- `resolve(path, ctx)`. -/
def resolve (fsOpen : List UInt8 → Except Int ExecFile) (mem : Bool) (S : VmState)
    (e : ExecContext) (path : List UInt8) : Option (VmState × ExecContext × Except Int OpenFile) :=
  resolveLoop fsOpen mem S e path

/-! ## `process_exec` -/

/-- What `process_exec` depends on that the model does not compute. -/
structure ExecEnv where
  /-- Whether memory is left for `k_malloc`. -/
  mem : Bool
  /-- The address space `vm_space_create` makes: it panics rather than return `NULL`. -/
  vmSpaceCreate : VmSpace
  /-- Whether `vmspace_map` gets an area for the stack, and for program header `k`. -/
  stackArea : Bool
  segmentArea : Nat → Bool
  fsOpen : List UInt8 → Except Int ExecFile
  /-- The value of `r` that `copy_in_args` returns unset. -/
  garbage : Int
  /-- `arch_trap_frame_init(proc, entry_va, argc, argv_va, env_va, sp_va)`. -/
  trapFrameInit : Nat → Nat → Nat → Nat → Nat → Int
  /-- Passes of `load_elf`'s loop. -/
  fuel : Nat

/-- The kernel state `process_exec` works on: the pages, the calling process's address space,
the Connections with the descriptor tables, and the signal state. -/
structure ExecSys where
  mem : VmState
  vm : VmSpace
  conn : Net.ConnState
  signals : SignalSys

/-- `process_exec(path, argv_va, envp_va)` in process `p`: the state after it and the result. -/
def processExec (sys : ExecSys) (p : Nat) (env : ExecEnv) (path : List UInt8)
    (argvVa envpVa : Nat) : Option (ExecSys × Int) :=
  -- `ctx.argv` and `ctx.envp`: `k_panic("out of memory")` on `NULL`
  match kMallocOk env.mem (4 * vecMax + 1) with
  | none | some false => none
  | some true =>
    match copyInArgs sys.mem sys.vm.pgtab argvVa env.mem env.garbage with
    | none => none
    | some (r, argv) =>
      if r ≠ 0 then some (sys, r)
      else
        match argv with
        -- `argv` is read unset
        | none => none
        | some argv =>
          match copyInArgs sys.mem sys.vm.pgtab envpVa env.mem env.garbage with
          | none => none
          | some (r, envp) =>
            if r ≠ 0 then some (sys, r)
            else
              match envp with
              | none => none
              | some envp =>
                match userStackInit sys.mem ⟨env.vmSpaceCreate, .fresh, 0, .fresh, 0, 0⟩
                    env.stackArea argv envp with
                | none => none
                | some (S₁, e, r) =>
                  if r ≠ 0 then some ({ sys with mem := S₁ }, r)
                  else
                    match resolve env.fsOpen env.mem S₁ e path with
                    | none => none
                    | some (S₂, _, .error r) => some ({ sys with mem := S₂ }, r)
                    | some (S₂, e, .ok file) =>
                      match userStackFinalize S₂ e with
                      | none => none
                      | some (S₃, .error r) => some ({ sys with mem := S₃ }, r)
                      | some (S₃, .ok (envVa, argvVa, spVa)) =>
                        match loadElf e.vm S₃ file env.segmentArea env.fuel with
                        | none => none
                        | some (vm, S₄, _, r, _, entry) =>
                          if r ≠ 0 then some ({ sys with mem := S₄ }, r)
                          else
                            match entry with
                            -- `ctx.entry_va` is read unset
                            | none => none
                            | some entry =>
                              match Net.fdCloseOnExec sys.conn p with
                              | none => none
                              | some conn =>
                                match signalReset sys.signals p with
                                | none => none
                                | some signals =>
                                  some (⟨S₄, vm, conn, signals⟩,
                                    env.trapFrameInit entry e.argc argvVa envVa spVa)

/-! ## The results of `copy_in_args` -/

theorem vmCopyInLoop_error {S : VmState} {pgtab va n : Nat} {r : Int}
    (h : vmCopyInLoop S pgtab va n = some (.error r)) : r = -eFault := by
  revert h
  fun_induction vmCopyInLoop S pgtab va n with
  | case1 =>
    intro h
    cases h
  | case2 =>
    intro h
    cases h
  | case3 =>
    intro h
    cases h
    rfl
  | case4 =>
    rename_i ih
    intro h
    obtain ⟨x, hx, hr⟩ := Option.map_eq_some_iff.mp h
    cases x with
    | error r' =>
      cases hr
      exact ih hx
    | ok _ => cases hr

/-- `vm_copy_in` fails only with `-EFAULT`. -/
theorem vmCopyIn_error {S : VmState} {pgtab va n : Nat} {r : Int}
    (h : vmCopyIn S pgtab va n = some (.error r)) : r = -eFault := by
  unfold vmCopyIn at h
  split at h
  · cases h
  · exact vmCopyInLoop_error h

/-- The user checks fail only with `-EFAULT`. -/
theorem vmUserCheckLoop_error {S : VmState} {pgtab : Nat} {flags : VmFlags} {size : Nat}
    {hsize : size ∣ pageSize} {isEnd : (Nat → UInt8) → Nat → Bool} {va len : Nat} {r : Int}
    (h : vmUserCheckLoop S pgtab flags size hsize isEnd va len = some (.error r)) :
    r = -eFault := by
  revert h
  fun_induction vmUserCheckLoop S pgtab flags size hsize isEnd va len with
  | case1 | case4 =>
    intro h
    cases h
  | case2 | case3 | case6 =>
    intro h
    cases h
    rfl
  | case5 =>
    rename_i ih
    exact ih

theorem vmUserCheckArgs_error {S : VmState} {pgtab va : Nat} {flags : VmFlags} {r : Int}
    (h : vmUserCheckArgs S pgtab va flags = some (.error r)) : r = -eFault := by
  unfold vmUserCheckArgs at h
  split at h
  · cases h
    rfl
  · exact vmUserCheckLoop_error h

/-- A vector at an address that is not a multiple of 4. -/
@[simp] theorem vmUserCheckArgs_misaligned {S : VmState} {pgtab va : Nat} {flags : VmFlags}
    (h : va % 4 ≠ 0) : vmUserCheckArgs S pgtab va flags = some (.error (-eFault)) := by
  rw [vmUserCheckArgs, if_pos h]

/-- The string of a pass of `copy_in_args`'s loop fails with `-EFAULT`, `-E2BIG` or `-ENOMEM`. -/
theorem copyInString_error {S : VmState} {pgtab : Nat} {mem : Bool} {total strVa : Nat}
    {r : Int} (h : copyInString S pgtab mem total strVa = some (.error r)) :
    r = -eFault ∨ r = -e2Big ∨ r = -eNoMem := by
  unfold copyInString at h
  -- the string check, the two bounds, and the copy of the string, in order
  split at h
  · cases h
  · cases h
    exact .inl (vmUserCheckLoop_error ‹_›)
  · split_ifs at h
    · cases h
      exact .inr (.inl rfl)
    · split at h
      · cases h
      · cases h
        exact .inr (.inr rfl)
      · split at h
        · cases h
        · cases h
          exact .inl rfl
        · split_ifs at h
          · cases h
            exact .inl rfl
          · cases h

/-- One pass of `copy_in_args`'s loop fails with `-EFAULT`, `-E2BIG` or `-ENOMEM`. -/
theorem copyInArg_error {S : VmState} {pgtab va : Nat} {mem : Bool} {i total : Nat}
    {r : Int} (h : copyInArg S pgtab va mem i total = some (.error r)) :
    r = -eFault ∨ r = -e2Big ∨ r = -eNoMem := by
  unfold copyInArg at h
  split at h
  · cases h
  · cases h
    exact .inl (vmCopyIn_error ‹_›)
  · exact copyInString_error h

/-- What the loop of `copy_in_args` returns: `-EFAULT`, `-E2BIG`, `-ENOMEM`, or 0 with the
strings. -/
theorem copyInArgsLoop_result {S : VmState} {pgtab va : Nat} {mem : Bool} :
    ∀ {n i total : Nat} {args : List (List UInt8)} {r : Int}
      {store : Option (List (List UInt8))},
      copyInArgsLoop S pgtab va mem n i total args = some (r, store) →
        ((r = -eFault ∨ r = -e2Big ∨ r = -eNoMem) ∧ store = none) ∨
          (r = 0 ∧ store.isSome) := by
  intro n
  induction n with
  | zero =>
    intro i total args r store h
    cases h
    exact .inr ⟨rfl, rfl⟩
  | succ n ih =>
    intro i total args r store h
    unfold copyInArgsLoop at h
    split at h
    · cases h
    · cases h
      exact .inl ⟨copyInArg_error ‹_›, rfl⟩
    · exact ih h

/-- What `copy_in_args` returns: the unset `r` when `vm_user_check_args` fails, otherwise
`-EFAULT`, `-E2BIG`, `-ENOMEM`, or 0 with `*store` set. -/
theorem copyInArgs_result {S : VmState} {pgtab va : Nat} {mem : Bool} {garbage r : Int}
    {store : Option (List (List UInt8))}
    (h : copyInArgs S pgtab va mem garbage = some (r, store)) :
    (r = garbage ∧ store = none) ∨ ((r = -eFault ∨ r = -e2Big ∨ r = -eNoMem) ∧ store = none) ∨
      (r = 0 ∧ store.isSome) := by
  unfold copyInArgs at h
  split at h
  · cases h
  · cases h
    exact .inl ⟨rfl, rfl⟩
  · dsimp only at h
    split_ifs at h
    · cases h
      exact .inr (.inl ⟨.inr (.inl rfl), rfl⟩)
    · split at h
      · cases h
      · cases h
        exact .inr (.inl ⟨.inr (.inr rfl), rfl⟩)
      · exact .inr (copyInArgsLoop_result h)

/-- A vector at a misaligned address: `copy_in_args` returns its unset `r` and sets nothing. -/
theorem copyInArgs_misaligned {S : VmState} {pgtab va : Nat} (mem : Bool)
    (garbage : Int) (h : va % 4 ≠ 0) :
    copyInArgs S pgtab va mem garbage = some (garbage, none) := by
  rw [copyInArgs, vmUserCheckArgs_misaligned h]

/-! ## The slots of the vectors -/

/-- The strings `args` put on the stack by `put` one after another from `va`, as
`user_stack_put_strings` would put them with room for every address: the pages, and the
addresses they got or the error of the first put that fails. -/
def putAll (put : StringPut) : List (List UInt8) → VmState → Nat →
    Option (VmState × Except Int (List Nat))
  | [], S, _ => some (S, .ok [])
  | s :: rest, S, va =>
    match put S s va with
    | none => none
    | some (S₁, .error r) => some (S₁, .error r)
    | some (S₁, .ok va₁) => (putAll put rest S₁ va₁).map fun x => (x.1, x.2.map (va₁ :: ·))

theorem putAll_cons_ok {put : StringPut} {s : List UInt8} {rest : List (List UInt8)}
    {S S' : VmState} {va : Nat} {vas : List Nat}
    (h : putAll put (s :: rest) S va = some (S', .ok vas)) :
    ∃ S₁ va₁ vas₁, put S s va = some (S₁, .ok va₁) ∧
      putAll put rest S₁ va₁ = some (S', .ok vas₁) ∧ vas = va₁ :: vas₁ := by
  unfold putAll at h
  split at h
  · cases h
  · cases h
  · rename_i S₁ va₁ hput
    obtain ⟨⟨S₂, r⟩, hrest, hx⟩ := Option.map_eq_some_iff.mp h
    cases r with
    | error r => cases hx
    | ok vas₁ =>
      cases hx
      exact ⟨S₁, va₁, vas₁, hput, hrest, rfl⟩

@[simp] theorem SlotArray.store_of_lt {a : SlotArray} {i : Nat} (x : Nat) (h : i < vecSlots) :
    a.store i x = some ⟨a.slots.set i x, by rw [List.length_set, a.length_eq]⟩ := by
  rw [SlotArray.store, if_pos h]

@[simp] theorem SlotArray.store_of_le {a : SlotArray} {i : Nat} (x : Nat) (h : vecSlots ≤ i) :
    a.store i x = none := by
  rw [SlotArray.store, if_neg (Nat.not_lt.mpr h)]

theorem SlotArray.load_of_le {a : SlotArray} {i : Nat} (h : vecSlots ≤ i) : a.load i = none := by
  rw [SlotArray.load, List.getElem?_eq_none_iff, a.length_eq]
  exact h

/-- The loop of `user_stack_put_strings` never reaches its `i > VEC_MAX` check: a slot index
below it is the last of the block. -/
theorem vecSlots_eq_vecMax : vecSlots = vecMax := rfl

/-- Whenever the strings fit on the stack, a vector with fewer strings than the block has slots
is put as `putAll` puts it, its addresses and the `NULL` after them in the slots. -/
theorem userStackPutStringsLoop_of_putAll {put : StringPut} :
    ∀ {args : List (List UInt8)} {S S' : VmState} {a : SlotArray} {va i : Nat} {vas : List Nat},
      putAll put args S va = some (S', .ok vas) → i + args.length < vecSlots →
        ∃ a' va', userStackPutStringsLoop put args S a va i =
          some (S', a', .ok (va', i + args.length)) := by
  intro args
  induction args with
  | nil =>
    intro S S' a va i vas h hlen
    cases h
    have hi : i < vecSlots := by simpa using hlen
    refine ⟨⟨a.slots.set i 0, by rw [List.length_set, a.length_eq]⟩, va, ?_⟩
    rw [userStackPutStringsLoop, SlotArray.store_of_lt 0 hi]
    rfl
  | cons s rest ih =>
    intro S S' a va i vas h hlen
    obtain ⟨S₁, va₁, vas₁, hput, hrest, -⟩ := putAll_cons_ok h
    have hi : i < vecSlots := by simp at hlen; omega
    have hle : ¬ i > vecMax := by rw [← vecSlots_eq_vecMax]; omega
    obtain ⟨a', va', hloop⟩ :=
      ih (a := ⟨a.slots.set i va₁, by rw [List.length_set, a.length_eq]⟩) (i := i + 1) hrest
        (by simp at hlen; omega)
    refine ⟨a', va', ?_⟩
    rw [userStackPutStringsLoop, if_neg hle, hput]
    simp only [SlotArray.store_of_lt va₁ hi]
    rw [hloop, List.length_cons, Nat.add_right_comm, Nat.add_assoc]

/-- A vector of at least as many strings as the block has slots: once the first `VEC_MAX + 1`
of them fit on the stack, `user_stack_put_strings` stores past the block, at slot `VEC_MAX` (the
address of string `VEC_MAX`, or the `NULL` after the last one). -/
theorem userStackPutStringsLoop_overflow {put : StringPut} :
    ∀ {args : List (List UInt8)} {S S' : VmState} {a : SlotArray} {va i : Nat} {vas : List Nat},
      i ≤ vecSlots → vecSlots ≤ i + args.length →
      putAll put (args.take (vecSlots + 1 - i)) S va = some (S', .ok vas) →
        userStackPutStringsLoop put args S a va i = none := by
  intro args
  induction args with
  | nil =>
    intro S S' a va i vas hi hlen _
    have hi' : vecSlots ≤ i := by simpa using hlen
    simp [userStackPutStringsLoop, SlotArray.store_of_le 0 hi']
  | cons s rest ih =>
    intro S S' a va i vas hi hlen h
    have hle : ¬ i > vecMax := by rw [← vecSlots_eq_vecMax]; omega
    rw [show vecSlots + 1 - i = (vecSlots - i) + 1 by omega, List.take_succ_cons] at h
    obtain ⟨S₁, va₁, vas₁, hput, hrest, -⟩ := putAll_cons_ok h
    rw [userStackPutStringsLoop, if_neg hle, hput]
    -- the address of `s` goes to slot `i`: past the block at `i = VEC_MAX`
    by_cases hi' : i < vecSlots
    · simp only [SlotArray.store_of_lt va₁ hi']
      exact ih (by omega) (by simp at hlen; omega)
        (by rw [show vecSlots + 1 - (i + 1) = vecSlots - i by omega]; exact hrest)
    · simp [SlotArray.store_of_le va₁ (Nat.le_of_not_lt hi')]

/-- `user_stack_put_strings` returns 0 only for fewer strings than the block has slots. -/
theorem userStackPutStringsLoop_ok {put : StringPut} :
    ∀ {args : List (List UInt8)} {S S' : VmState} {a a' : SlotArray} {va va' i argc : Nat},
      userStackPutStringsLoop put args S a va i = some (S', a', .ok (va', argc)) →
        argc = i + args.length ∧ argc < vecSlots := by
  intro args
  induction args with
  | nil =>
    intro S S' a a' va va' i argc h
    unfold userStackPutStringsLoop at h
    obtain ⟨a₁, hstore, hx⟩ := Option.map_eq_some_iff.mp h
    cases hx
    by_cases hi : i < vecSlots
    · exact ⟨rfl, hi⟩
    · rw [SlotArray.store_of_le 0 (Nat.le_of_not_lt hi)] at hstore
      cases hstore
  | cons s rest ih =>
    intro S S' a a' va va' i argc h
    unfold userStackPutStringsLoop at h
    by_cases hi : i > vecMax
    · rw [if_pos hi] at h
      cases h
    · rw [if_neg hi] at h
      -- the put of `s` and the store of its address succeed
      split at h
      · cases h
      · cases h
      · split at h
        · cases h
        · obtain ⟨hargc, hlt⟩ := ih h
          exact ⟨by rw [hargc, List.length_cons]; omega, hlt⟩

/-- The shift of `resolve_file` from `argc` at least `VEC_MAX - 1`: its first store, to
`argv[argc + 1]`, or its first load, of `argv[argc]`, is past the block. -/
theorem shiftArgs_overflow (a : SlotArray) {n : Nat} (hn : vecSlots ≤ n + 1) :
    shiftArgs a n = none := by
  obtain ⟨k, rfl⟩ : ∃ k, n = k + 1 := ⟨n - 1, by simp [vecSlots, vecMax] at hn; omega⟩
  by_cases hk : k + 1 < vecSlots
  · -- the load of `argv[k + 1]` is inside the block, the store to `argv[k + 2]` is not
    have hload : a.load (k + 1) = some (a.slots.get ⟨k + 1, by rw [a.length_eq]; exact hk⟩) := by
      simp [SlotArray.load]
    simp only [shiftArgs, hload, Option.bind_eq_bind, Option.bind_some,
      SlotArray.store_of_le _ (show vecSlots ≤ k + 2 by omega), Option.bind_none]
  · simp only [shiftArgs, SlotArray.load_of_le (Nat.le_of_not_lt hk), Option.bind_eq_bind,
      Option.bind_none]

/-! ## `process_exec` -/

/-- Every return of `process_exec` but the one after its commit gives back the caller's state
with only its pages changed: the address space, the descriptor tables and the signal state are
the caller's. The commit closes the close-on-exec descriptors and resets the signals, and the
call returns what `arch_trap_frame_init` returns. -/
theorem processExec_atomic {sys sys' : ExecSys} {p : Nat} {env : ExecEnv} {path : List UInt8}
    {argvVa envpVa : Nat} {r : Int}
    (h : processExec sys p env path argvVa envpVa = some (sys', r)) :
    (∃ S, sys' = { sys with mem := S }) ∨
      ((∃ entry argc argvVa' envVa spVa, r = env.trapFrameInit entry argc argvVa' envVa spVa) ∧
        Net.fdCloseOnExec sys.conn p = some sys'.conn ∧
        signalReset sys.signals p = some sys'.signals) := by
  unfold processExec at h
  -- every return but the last gives back the caller's state with only its pages changed
  repeat' split at h
  all_goals simp only [Option.some.injEq, Prod.mk.injEq, reduceCtorEq] at h
  all_goals obtain ⟨rfl, rfl⟩ := h
  all_goals first
    | exact .inl ⟨_, rfl⟩
    | exact .inr ⟨⟨_, _, _, _, _, rfl⟩, ‹_›, ‹_›⟩

/-- A misaligned argument vector: `process_exec` returns the unset `r` of `copy_in_args`, and
when that value is 0 it goes on with `argv` unset. -/
theorem processExec_misaligned {sys : ExecSys} {p : Nat} {env : ExecEnv} {path : List UInt8}
    {argvVa envpVa : Nat} (hmem : env.mem = true) (halign : argvVa % 4 ≠ 0) :
    processExec sys p env path argvVa envpVa =
      if env.garbage = 0 then none else some (sys, env.garbage) := by
  have hvec : kMallocOk env.mem (4 * vecMax + 1) = some true := by
    rw [hmem]
    exact kMallocOk_of_le (by decide)
  by_cases hg : env.garbage = 0
  · simp [processExec, hvec, copyInArgs_misaligned _ _ halign, hg]
  · simp [processExec, hvec, copyInArgs_misaligned _ _ halign, hg]

/-- The strings of the script's `#!` line, with 254 or 255 arguments: once the script's name is
on the stack, `resolve_file` stores past `ctx.argv`. -/
theorem resolveFileInsert_overflow {S S₁ : VmState} {e : ExecContext} {p name : List UInt8}
    {mem : Bool} {sp : Nat} (hmin : vecSlots ≤ e.argc + 1) (hmax : e.argc ≤ vecMax)
    (hput : userStackPutString S e.vm.pgtab p e.spVa = some (S₁, .ok sp)) :
    resolveFileInsert S e p name mem = none := by
  rw [resolveFileInsert, if_neg (Nat.not_lt.mpr hmax), hput]
  simp only [shiftArgs_overflow _ hmin]

/-! ## Runs -/

/-- The caller of the runs below: page table 0 maps user pages at 0x1000 and 0x2000; at 0x1000 a
vector of `n` pointers to the string `"a"` at 0x2000 and then `NULL`. -/
def callerMem (n : Nat) : VmState :=
  let S := ((vmUserAlloc (vmBoot (List.range' 8 40)) 0 0x1000 0x2000 stackProt).getD
    (vmBoot [], 0)).1
  let S := ((vmCopyOut S 0 (fun i => if i < 4 * n then (leWord 0x2000).getD (i % 4) 0 else 0)
    0x1000 (4 * n + 4)).getD (vmBoot [], 0)).1
  ((vmCopyOut S 0 (fun i => [0x61, 0].getD i 0) 0x2000 2).getD (vmBoot [], 0)).1

/-- The caller process 0 with `callerMem n`, no descriptors, and a thread with no signals. -/
def execCaller (n : Nat) : ExecSys :=
  ⟨callerMem n, ⟨0, []⟩, Net.connInit,
    ⟨⟨fun _ => { (default : Process) with thread := some 0 }, [], [], [], [], [], fun _ => 0, 1, 0⟩,
      fun _ _ => default, fun _ => 0, fun _ => ⟨0, fun _ => none, []⟩, fun _ => 0, [], 0⟩⟩

/-- Every allocation succeeds, and every path opens `file` as an executable regular file. -/
def execEnv (file : OpenFile) : ExecEnv where
  mem := true
  vmSpaceCreate := ⟨1, []⟩
  stackArea := true
  segmentArea := fun _ => true
  fsOpen := fun _ => .ok ⟨.ok (sIfReg ||| sIxAll), file⟩
  garbage := 0
  trapFrameInit := fun _ _ _ _ _ => 0
  fuel := 2

/-- `process_exec` neither keeps its vectors in their slots nor returns only negative errors:
a misaligned vector makes `copy_in_args` return its unset `r`, which `process_exec` returns or,
when it is 0, goes on from with `argv` unset; a vector of 255 or more strings that fit on the
stack makes `user_stack_put_strings` store past its 255 slots; with 254 or 255 arguments a `#!`
script makes `resolve_file` store past `ctx.argv`; `copy_in_args` admits 255 one-letter
arguments, with which `process_exec` stores past `ctx.argv` where 254 run to the commit; and a
segment at an address that is not page aligned makes `process_exec` return that address
rounded up. -/
theorem process_exec_mishandles_arguments :
    (∀ (S : VmState) (pgtab va : Nat) (mem : Bool) (garbage : Int), va % 4 ≠ 0 →
      copyInArgs S pgtab va mem garbage = some (garbage, none)) ∧
    (∀ (sys : ExecSys) (p : Nat) (env : ExecEnv) (path : List UInt8) (argvVa envpVa : Nat),
      env.mem = true → argvVa % 4 ≠ 0 →
        processExec sys p env path argvVa envpVa =
          if env.garbage = 0 then none else some (sys, env.garbage)) ∧
    (∀ (put : StringPut) (args : List (List UInt8)) (S S' : VmState) (a : SlotArray) (va : Nat)
      (vas : List Nat), vecSlots ≤ args.length →
      putAll put (args.take (vecSlots + 1)) S va = some (S', .ok vas) →
        userStackPutStringsLoop put args S a va 0 = none) ∧
    (∀ (S S₁ : VmState) (e : ExecContext) (p name : List UInt8) (mem : Bool)
      (sp : Nat), vecSlots ≤ e.argc + 1 → e.argc ≤ vecMax →
      userStackPutString S e.vm.pgtab p e.spVa = some (S₁, .ok sp) →
        resolveFileInsert S e p name mem = none) ∧
    copyInArgs (callerMem 255) 0 0x1000 true 0 =
      some (0, some (List.replicate 255 [0x61])) ∧
    processExec (execCaller 255) 0 (execEnv (shortImage 0x1000)) [0x61] 0x1000
      (0x1000 + 4 * 255) = none ∧
    (processExec (execCaller 254) 0 (execEnv (shortImage 0x1000)) [0x61] 0x1000
      (0x1000 + 4 * 254)).map (·.2) = some 0 ∧
    (processExec (execCaller 0) 0 (execEnv (shortImage 0x1001)) [0x61] 0x1000 0x1000).map
      (·.2) = some 0x2000 := by
  refine ⟨?_, ?_, ?_, ?_, by decide +kernel, by decide +kernel, by decide +kernel,
    by decide +kernel⟩
  · intro S pgtab va mem garbage halign
    exact copyInArgs_misaligned mem garbage halign
  · intro sys p env path argvVa envpVa hmem halign
    exact processExec_misaligned hmem halign
  · intro put args S S' a va vas hlen hput
    exact userStackPutStringsLoop_overflow (Nat.zero_le _) (by omega) hput
  · intro S S₁ e p name mem sp hmin hmax hput
    exact resolveFileInsert_overflow hmin hmax hput

end Argentum.Proc
