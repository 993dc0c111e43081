import Mathlib

/-!
# Argentum.Proc.Process

The process table of `kernel/process/process.c`: `process_copy` (fork), `process_destroy`
(exit), `process_wait` and the allocation and release of descriptors under them.

Processes are named by their descriptor objects; `procs` holds the fields of each descriptor
that these functions read and write. The lists of the source are lists of objects: a process's
`children`, `__process_list` and the chains of `pid_hash`, taken together. The object pools
`process_cache` and `thread_cache` and the page allocator are the objects they can hand out;
each panics when it has none, so `process_alloc` never returns `NULL`. A `k_panic`, a failed
`k_assert` or a loop that never ends is `none`. `process_copy`, which also clones the signal
state, is in `Argentum.Proc.Lifecycle`.
-/

namespace Argentum.Proc

/-- `ENOMEM`, `ECHILD` and `EINVAL`. -/
def eNoMem : Int := 12
def eChild : Int := 10
def eInval : Int := 22

/-- `WNOHANG` and `WUNTRACED`, newlib's. -/
def wNoHang : Nat := 1
def wUntraced : Nat := 2

/-- `PROCESS_STATE_ACTIVE`, `PROCESS_STATE_ZOMBIE` and `PROCESS_STATE_STOPPED`. -/
inductive ProcessState
  | active
  | zombie
  | stopped
  deriving DecidableEq, Repr, Inhabited

/-- The fields of `struct Process` that the functions here read and write. `available` is
`PROCESS_STATUS_AVAILABLE` of `flags`. -/
structure Process where
  pid : Int
  pgid : Int
  parent : Option Nat
  children : List Nat
  state : ProcessState
  available : Bool
  status : Int
  thread : Option Nat
  vm : Option Nat
  utime : Nat
  stime : Nat
  cutime : Nat
  cstime : Nat
  deriving DecidableEq, Repr, Inhabited

/-- The processes and what they are allocated from. -/
structure ProcessSys where
  procs : Nat → Process
  /-- `__process_list`. -/
  processList : List Nat
  /-- The processes linked into `pid_hash`. -/
  pidHash : List Nat
  /-- The free objects of `process_cache` and `thread_cache`. -/
  processCache : List Nat
  threadCache : List Nat
  /-- The pages `page_alloc_one` hands out, and the reference counts. -/
  freePages : List Nat
  refCount : Nat → Nat
  nextPid : Int
  /-- `init_process`. -/
  init : Nat

/-- `process_alloc()`: a thread, a descriptor and a kernel stack page, and the next pid, put in
`pid_hash`. The descriptor's `pgid` and `status` are what its object last held. -/
def processAlloc (S : ProcessSys) : Option (ProcessSys × Nat) :=
  match S.threadCache, S.processCache, S.freePages with
  | thread :: threads, proc :: procs, page :: pages =>
    -- `page_alloc_block` asserts a free page has no reference
    if S.refCount page ≠ 0 then none
    else
      let pid := S.nextPid + 1
      -- `process->pid = ++next_pid` is an `int`, and a negative one is `k_panic`
      if 2 ^ 31 ≤ pid then none
      else
        let p := S.procs proc
        some ({ S with
          threadCache := threads
          processCache := procs
          freePages := pages
          refCount := Function.update S.refCount page (S.refCount page + 1)
          nextPid := pid
          pidHash := S.pidHash ++ [proc]
          procs := Function.update S.procs proc { p with
            pid, thread := some thread, children := [], vm := none, parent := none,
            state := .active, available := false, utime := 0, stime := 0, cutime := 0,
            cstime := 0 } }, proc)
  -- `k_object_pool_get` and `page_alloc_one` panic when they have nothing to give
  | _, _, _ => none

/-- `process_free(process)`: out of `__process_list` and `pid_hash`, and back to the pool. -/
def processFree (S : ProcessSys) (proc : Nat) : Option ProcessSys :=
  let S := { S with processList := S.processList.erase proc, pidHash := S.pidHash.erase proc }
  -- `k_assert(process->thread == NULL)`
  if (S.procs proc).thread.isSome then none
  else some { S with processCache := proc :: S.processCache }

/-- `process_match_pid(process, pid)` with `current` the calling process: `-1` matches every
process, a pid its process, any other negative value a process group, and `0` the caller's
group. -/
def processMatchPid (S : ProcessSys) (current proc : Nat) (pid : Int) : Bool :=
  if pid = -1 then true
  else if (S.procs proc).pid = pid then true
  else if pid < 0 then (S.procs proc).pgid = -pid
  else if pid = 0 then (S.procs proc).pgid = (S.procs current).pgid
  else false

/-! ## What `process_alloc` hands out -/

/-- `process_alloc` takes the first free thread and descriptor and gives the descriptor the next
pid, puts it in `pid_hash` and resets it; it changes nothing else of the process table. -/
theorem processAlloc_eq_some {S S₁ : ProcessSys} {proc : Nat}
    (h : processAlloc S = some (S₁, proc)) :
    ∃ thread, S.threadCache = thread :: S₁.threadCache ∧
      S.processCache = proc :: S₁.processCache ∧ S₁.processList = S.processList ∧
      S₁.pidHash = S.pidHash ++ [proc] ∧ S₁.nextPid = S.nextPid + 1 ∧ S₁.nextPid < 2 ^ 31 ∧
      S₁.init = S.init ∧
      S₁.procs = Function.update S.procs proc
        { S.procs proc with
          pid := S.nextPid + 1, thread := some thread, children := [], vm := none,
          parent := none, state := .active, available := false, utime := 0, stime := 0,
          cutime := 0, cstime := 0 } := by
  unfold processAlloc at h
  split at h
  · next thread threads proc' procs page pages hthread hproc hpage =>
    dsimp only at h
    split_ifs at h with hrc hpid
    obtain ⟨rfl, rfl⟩ := Prod.mk.inj (Option.some.inj h)
    exact ⟨thread, hthread, hproc, rfl, rfl, rfl, by simpa using hpid, rfl, rfl⟩
  · cases h

/-- The descriptor `process_alloc` hands out has its thread attached. -/
theorem processAlloc_thread {S S₁ : ProcessSys} {proc : Nat}
    (h : processAlloc S = some (S₁, proc)) : (S₁.procs proc).thread.isSome := by
  unfold processAlloc at h
  split at h
  · dsimp only at h
    split_ifs at h
    obtain ⟨rfl, rfl⟩ := Prod.mk.inj (Option.some.inj h)
    simp
  · cases h

/-- `process_alloc` panics when a pool or the page allocator has nothing to give. -/
theorem processAlloc_eq_none {S : ProcessSys}
    (h : S.threadCache = [] ∨ S.processCache = [] ∨ S.freePages = []) : processAlloc S = none := by
  unfold processAlloc
  rcases h with h | h | h <;> split <;> simp_all

end Argentum.Proc
