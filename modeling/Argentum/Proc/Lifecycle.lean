import Argentum.Proc.Signal
import Argentum.Mm.VmSpace

/-!
# Argentum.Proc.Lifecycle

The life of a process in `kernel/process/process.c` beyond its descriptor: `process_create`,
which `process_init` uses for `init_process`; `process_copy` with the `signal_clone` it makes;
`process_destroy`; and `process_wait`. `ProcReachable` is every state these calls reach from
`process_init`.

`process_destroy` hands every child to `init_process`, makes the process a zombie that keeps
its status, and tells the parent with `SIGCHLD`. The source frees its thread object later, from
`thread_idle`; a step here returns it to `thread_cache` at once. `process_wait` scans the
caller's children and reaps the first one that matches the selector and has its status
available. The `k_waitqueue_sleep` in its loop is the result `sleep`: the caller blocks, and
once woken it scans again, which is another `process_wait` step. The page allocator is shared
with the rest of the kernel, so a run may change its free pages between any two calls.

`process_copy` never returns `-ENOMEM`. When memory runs out, `process_alloc` panics
(`fork_out_of_memory_panics`); and where `vm_space_clone` returns `NULL`, the child goes to
`process_free` with its thread still attached, whose `k_assert` stops the kernel
(`processCopy_clone_null`).
-/

namespace Argentum.Proc

/-- `process_create(binary, pstore)` for a binary that loads, with `vm` the address space
`vm_space_create` made: a descriptor from `process_alloc` in process group 0, put on
`__process_list`. -/
def processCreate (S : ProcessSys) (vm : Nat) : Option (ProcessSys × Nat) := do
  let (S, proc) ← processAlloc S
  let p := S.procs proc
  let S := { S with procs := Function.update S.procs proc { p with vm := some vm, pgid := 0 } }
  some ({ S with processList := S.processList ++ [proc] }, proc)

/-- What `vm_space_clone(current->vm, share_vm)` works on: the pages and page tables, the
address space that `current->vm` points to, and the `VMSpace` object and the page table that
`vm_space_create` gets for the copy. -/
structure CloneEnv where
  pages : Mm.VmState
  vm : Mm.VmSpace
  newVm : Nat
  pgtab : Nat

/-- `process_copy(share_vm)` (fork) from the process `current`: the child's pid, or `-ENOMEM`
where `vm_space_clone` returns `NULL`, with the pages and page tables after the call. -/
def processCopy (G : SignalSys) (E : CloneEnv) (current : Nat) (shareVm : Bool) :
    Option (SignalSys × Mm.VmState × Int) := do
  let (S, child) ← processAlloc G.sys
  match Mm.vmSpaceClone E.pages E.vm E.pgtab shareVm with
  | none => none
  | some (V, none) => (processFree S child).map fun S => ({ G with sys := S }, V, -eNoMem)
  | some (V, some _) =>
    let c := S.procs child
    let procs := Function.update S.procs child
      { c with vm := some E.newVm, parent := some current, pgid := (S.procs current).pgid }
    let G ← signalClone { G with sys := { S with procs } } current child
    let cur := G.sys.procs current
    let S := { G.sys with
      procs := Function.update G.sys.procs current { cur with children := cur.children ++ [child] }
      processList := G.sys.processList ++ [child] }
    -- `k_assert(child->thread != NULL)`
    if (S.procs child).thread.isNone then none
    else some ({ G with sys := S }, V, (S.procs child).pid)

/-- The loop of `process_destroy` that moves the children `cs` of the exiting process, each from
the front of its list to the back of the list of `init_process`. -/
def processReparent (S : ProcessSys) : List Nat → ProcessSys
  | [] => S
  | c :: cs =>
    let procs := Function.update S.procs c { S.procs c with parent := some S.init }
    let i := procs S.init
    processReparent
      { S with procs := Function.update procs S.init { i with children := i.children ++ [c] } } cs

/-- `process_destroy(status)` of the process `current`. -/
def processDestroy (G : SignalSys) (current : Nat) (status : Int) : Option SignalSys := do
  -- `HASH_REMOVE(&current->pid_link)`
  let S := { G.sys with pidHash := G.sys.pidHash.erase current }
  let children := (S.procs current).children
  -- for `init_process` itself each child taken off its list goes back on it: the loop never ends
  if current = S.init ∧ children ≠ [] then none
  else
    let S := processReparent S children
    let cur := S.procs current
    let S := { S with
      procs := Function.update S.procs current
        { cur with
          children := []
          vm := none
          state := .zombie
          available := true
          status } }
    let G ← signalStateChangeToParent { G with sys := S } current
    -- `current->thread->process = NULL`, then `k_task_exit`
    let t ← (G.sys.procs current).thread
    let cur := G.sys.procs current
    some { G with
      sys := { G.sys with
        procs := Function.update G.sys.procs current { cur with thread := none }
        threadCache := t :: G.sys.threadCache } }

/-- What `process_wait` returns: the value and what it stored at `stat_loc`, or `sleep` when it
sleeps on the caller's `wait_queue`. -/
inductive WaitResult
  | ret (r : Int) (status : Option Int)
  | sleep
  deriving DecidableEq, Repr

/-- Whether `process_wait` reports a matching child: its status is available and it is neither
stopped, unless `WUNTRACED` is given, nor active. -/
def processWaitReports (S : ProcessSys) (untraced : Bool) (c : Nat) : Bool :=
  let proc := S.procs c
  proc.available && !(proc.state = .stopped && !untraced) && proc.state != .active

/-- The scan of `process_wait` over the caller's children `cs`: the first child that matches the
selector and reports, and `match`, the pid of the last matching child seen. -/
def processWaitScan (S : ProcessSys) (current : Nat) (pid : Int) (untraced : Bool) :
    List Nat → Int → Option Nat × Int
  | [], m => (none, m)
  | c :: cs, m =>
    if processMatchPid S current c pid then
      if processWaitReports S untraced c then (some c, (S.procs c).pid)
      else processWaitScan S current pid untraced cs (S.procs c).pid
    else processWaitScan S current pid untraced cs m

/-- `process_wait(pid, stat_loc, options)` of the process `current`. -/
def processWait (G : SignalSys) (current : Nat) (pid options : Int) :
    Option (SignalSys × WaitResult) :=
  -- `options & ~(WNOHANG | WUNTRACED)` of an `int`
  if options < 0 ∨ 4 ≤ options then some (G, .ret (-eInval) none)
  else
    let S := G.sys
    let untraced := options.toNat &&& wUntraced ≠ 0
    match processWaitScan S current pid untraced (S.procs current).children 0 with
    | (some c, m) =>
      let proc := S.procs c
      let S := { S with procs := Function.update S.procs c { proc with available := false } }
      if proc.state = .zombie then
        let cur := S.procs current
        let S := { S with
          procs := Function.update S.procs current
            { cur with
              children := cur.children.erase c
              cutime := cur.cutime + proc.utime
              cstime := cur.cstime + proc.stime }
          processList := S.processList.erase c }
        (processFree S c).map fun S => ({ G with sys := S }, .ret m (some proc.status))
      else some ({ G with sys := S }, .ret m (some proc.status))
    | (none, m) =>
      if m = 0 then some (G, .ret (-eChild) none)
      else if options.toNat &&& wNoHang ≠ 0 then some (G, .ret 0 none)
      else some (G, .sleep)

/-! ## Create -/

/-- `process_create` gives the first free descriptor the next pid, a thread, the new address
space and group 0, with no parent and no children, and puts it on `__process_list` and in
`pid_hash`. -/
theorem processCreate_eq_some {S S₁ : ProcessSys} {vm proc : Nat}
    (h : processCreate S vm = some (S₁, proc)) :
    ∃ thread, S.processCache = proc :: S₁.processCache ∧
      S₁.processList = S.processList ++ [proc] ∧ S₁.pidHash = S.pidHash ++ [proc] ∧
      S₁.nextPid = S.nextPid + 1 ∧
      S₁.procs proc =
        { S.procs proc with
          pid := S.nextPid + 1, pgid := 0, thread := some thread, children := [],
          vm := some vm, parent := none, state := .active, available := false, utime := 0,
          stime := 0, cutime := 0, cstime := 0 } := by
  unfold processCreate at h
  obtain ⟨⟨S₂, proc'⟩, halloc, h⟩ := Option.bind_eq_some_iff.mp h
  obtain ⟨rfl, rfl⟩ := Prod.mk.inj (Option.some.inj h)
  obtain ⟨thread, -, hcache, hlist, hhash, hnext, -, -, hprocs⟩ := processAlloc_eq_some halloc
  refine ⟨thread, hcache, by simp [hlist], hhash, hnext, ?_⟩
  simp [hprocs]

/-! ## Fork -/

variable {G G' : SignalSys} {E : CloneEnv} {shareVm : Bool}

/-- Where `vm_space_clone` returns `NULL`, `process_copy` stops at the `k_assert` of
`process_free`: the child still holds the thread `process_alloc` gave it. -/
theorem processCopy_clone_null {V : Mm.VmState}
    (hclone : Mm.vmSpaceClone E.pages E.vm E.pgtab shareVm = some (V, none)) (p : Nat) :
    processCopy G E p shareVm = none := by
  unfold processCopy
  cases halloc : processAlloc G.sys with
  | none => rfl
  | some a =>
    obtain ⟨S₁, child⟩ := a
    have hthread := processAlloc_thread halloc
    simp [processFree, hclone, hthread]

/-- When memory runs out, `process_copy` does not return `-ENOMEM`: with a pool or the page
allocator empty, `process_alloc` panics. -/
theorem fork_out_of_memory_panics
    (hmem : G.sys.threadCache = [] ∨ G.sys.processCache = [] ∨ G.sys.freePages = [])
    (E : CloneEnv) (current : Nat) (shareVm : Bool) : processCopy G E current shareVm = none := by
  unfold processCopy
  rw [processAlloc_eq_none hmem]
  rfl

/-- Descriptor 0 forks while a thread object and a descriptor are free but no page is. -/
theorem fork_out_of_memory_panics_no_page :
    ∃ G : SignalSys, G.sys.threadCache ≠ [] ∧ G.sys.processCache ≠ [] ∧
      G.sys.freePages = [] ∧ ∀ E shareVm, processCopy G E 0 shareVm = none :=
  ⟨⟨⟨fun _ => default, [0], [0], [1], [1], [], fun _ => 0, 1, 0⟩, fun _ _ => default,
      fun _ => 0, fun _ => ⟨0, fun _ => none, []⟩, fun _ => 0, [], 0⟩,
    List.cons_ne_nil _ _, List.cons_ne_nil _ _, rfl,
    fun E shareVm => fork_out_of_memory_panics (Or.inr (Or.inr rfl)) E 0 shareVm⟩

/-- A fork by `p`, which is not a free descriptor: the first free descriptor becomes a child of
`p` with the next pid, a thread and the new address space object, at the back of
`__process_list`, `pid_hash` and `p`'s children; no other process changes. -/
theorem processCopy_eq_some {p : Nat} {V' : Mm.VmState} {r : Int}
    (hp : p ∉ G.sys.processCache) (h : processCopy G E p shareVm = some (G', V', r)) :
    ∃ child thread, G.sys.processCache = child :: G'.sys.processCache ∧
      G'.sys.processList = G.sys.processList ++ [child] ∧
      G'.sys.pidHash = G.sys.pidHash ++ [child] ∧ G'.sys.nextPid = G.sys.nextPid + 1 ∧
      G'.sys.nextPid < 2 ^ 31 ∧ G'.sys.init = G.sys.init ∧ r = G.sys.nextPid + 1 ∧
      G'.sys.procs child =
        { G.sys.procs child with
          pid := G.sys.nextPid + 1, thread := some thread, children := [], vm := some E.newVm,
          parent := some p, pgid := (G.sys.procs p).pgid, state := .active,
          available := false, utime := 0, stime := 0, cutime := 0, cstime := 0 } ∧
      G'.sys.procs p =
        { G.sys.procs p with children := (G.sys.procs p).children ++ [child] } ∧
      ∀ q, q ≠ child → q ≠ p → G'.sys.procs q = G.sys.procs q := by
  unfold processCopy at h
  obtain ⟨⟨S₁, child⟩, halloc, h⟩ := Option.bind_eq_some_iff.mp h
  obtain ⟨thread, hthread, hcache, hlist, hhash, hnext, hlt, hinit, hprocs⟩ :=
    processAlloc_eq_some halloc
  have hne : p ≠ child := by
    rintro rfl
    exact hp (by rw [hcache]; exact List.mem_cons_self)
  dsimp only at h
  split at h
  · contradiction
  · -- `NULL` from `vm_space_clone`: `process_free` asserts
    simp [processFree, processAlloc_thread halloc] at h
  -- the rest of `process_copy`: the child's address space, parent and group, and the lists
  obtain ⟨G₂, hclone, h⟩ := Option.bind_eq_some_iff.mp h
  have hsys := signalClone_sys hclone
  dsimp only at hsys
  split_ifs at h with hth
  obtain ⟨rfl, -, rfl⟩ := h
  refine ⟨child, thread, by rw [hcache, hsys], by rw [hsys, hlist], by rw [hsys, hhash],
    by rw [hsys, hnext], by rw [hsys]; exact hlt, by rw [hsys, hinit], ?_, ?_, ?_, ?_⟩
  · simp [hsys, hprocs, Function.update_apply, Ne.symm hne]
  · simp [hsys, hprocs, hne, Ne.symm hne]
  · simp [hsys, hprocs, hne]
  · intro q hqc hqp
    simp [hsys, hprocs, Function.update_apply, hqc, hqp]

/-! ## Exit -/

/-- The reparenting loop changes descriptors only. -/
theorem processReparent_eq (S : ProcessSys) (cs : List Nat) :
    processReparent S cs = { S with procs := (processReparent S cs).procs } := by
  induction cs generalizing S with
  | nil => rfl
  | cons c cs ih =>
    rw [processReparent, ih]

@[simp] theorem processReparent_processList (S : ProcessSys) (cs : List Nat) :
    (processReparent S cs).processList = S.processList := by
  rw [processReparent_eq]

@[simp] theorem processReparent_pidHash (S : ProcessSys) (cs : List Nat) :
    (processReparent S cs).pidHash = S.pidHash := by
  rw [processReparent_eq]

@[simp] theorem processReparent_processCache (S : ProcessSys) (cs : List Nat) :
    (processReparent S cs).processCache = S.processCache := by
  rw [processReparent_eq]

@[simp] theorem processReparent_nextPid (S : ProcessSys) (cs : List Nat) :
    (processReparent S cs).nextPid = S.nextPid := by
  rw [processReparent_eq]

@[simp] theorem processReparent_init (S : ProcessSys) (cs : List Nat) :
    (processReparent S cs).init = S.init := by
  rw [processReparent_eq]

/-- After the loop, init's list ends with the moved children, each of them has init for parent,
and no other descriptor changes. -/
theorem processReparent_procs {S : ProcessSys} {cs : List Nat} (hinit : S.init ∉ cs)
    (hnodup : cs.Nodup) (q : Nat) :
    (processReparent S cs).procs q =
      if q = S.init then { S.procs q with children := (S.procs q).children ++ cs }
      else if q ∈ cs then { S.procs q with parent := some S.init }
      else S.procs q := by
  induction cs generalizing S with
  | nil => by_cases hq : q = S.init <;> simp [processReparent, hq]
  | cons c cs ih =>
    obtain ⟨hc, hcs⟩ := List.nodup_cons.mp hnodup
    have hci : c ≠ S.init := fun h => hinit (h ▸ List.mem_cons_self)
    rw [processReparent, ih (by exact fun h => hinit (List.mem_cons_of_mem c h)) hcs]
    by_cases hq : q = S.init
    · subst hq
      simp [Function.update_of_ne (Ne.symm hci)]
    · by_cases hqc : q = c
      · subst hqc
        simp [hq, hc]
      · simp [hq, hqc]

/-- `process_destroy` by `p`, whose children neither include `p` nor init and are listed once:
`p` becomes a zombie without thread, address space or children, out of `pid_hash`; its children
go to the back of init's list with init for parent, and no other process changes. -/
theorem processDestroy_eq_some {p : Nat} {status : Int} (h : processDestroy G p status = some G')
    (hinit : G.sys.init ∉ (G.sys.procs p).children) (hself : p ∉ (G.sys.procs p).children)
    (hnodup : (G.sys.procs p).children.Nodup) :
    ¬(p = G.sys.init ∧ (G.sys.procs p).children ≠ []) ∧
      G'.sys.processList = G.sys.processList ∧ G'.sys.pidHash = G.sys.pidHash.erase p ∧
      G'.sys.processCache = G.sys.processCache ∧ G'.sys.nextPid = G.sys.nextPid ∧
      G'.sys.init = G.sys.init ∧
      G'.sys.procs p =
        { G.sys.procs p with
          children := [], vm := none, state := .zombie, available := true, status,
          thread := none } ∧
      (p ≠ G.sys.init → G'.sys.procs G.sys.init =
        { G.sys.procs G.sys.init with
          children := (G.sys.procs G.sys.init).children ++ (G.sys.procs p).children }) ∧
      (∀ c ∈ (G.sys.procs p).children, G'.sys.procs c =
        { G.sys.procs c with parent := some G.sys.init }) ∧
      ∀ q, q ≠ p → q ≠ G.sys.init → q ∉ (G.sys.procs p).children →
        G'.sys.procs q = G.sys.procs q := by
  unfold processDestroy at h
  dsimp only at h
  split_ifs at h with hloop
  obtain ⟨G₁, hchange, h⟩ := Option.bind_eq_some_iff.mp h
  obtain ⟨t, -, h⟩ := Option.bind_eq_some_iff.mp h
  cases h
  have hsys := signalStateChangeToParent_sys hchange
  have hRp := processReparent_procs (S := { G.sys with pidHash := G.sys.pidHash.erase p })
    hinit hnodup
  -- `p` is not among its children, so the loop leaves it alone
  have hp : (processReparent { G.sys with pidHash := G.sys.pidHash.erase p }
      (G.sys.procs p).children).procs p = G.sys.procs p := by
    by_cases hpi : p = G.sys.init
    · have hnil : (G.sys.procs p).children = [] := by
        by_contra hne
        exact hloop ⟨hpi, hne⟩
      rw [hnil]
      rfl
    · rw [hRp]
      simp [hpi, hself]
  simp only [hsys]
  refine ⟨hloop, by simp, by simp, by simp, by simp, by simp, ?_, ?_, ?_, ?_⟩
  · simp [hp]
  · intro hpi
    simp [Ne.symm hpi, hRp]
  · intro c hc
    have hcp : c ≠ p := fun e => hself (e ▸ hc)
    have hci : c ≠ G.sys.init := fun e => hinit (e ▸ hc)
    simp [hcp, hRp, hci, hc]
  · intro q hqp hqi hqc
    simp [hqp, hRp, hqi, hqc]

/-- In `process_destroy` by `p` every other process keeps its state, pid, thread, address space
and status flag. -/
theorem processDestroy_other {p q : Nat} {status : Int} (h : processDestroy G p status = some G')
    (hinit : G.sys.init ∉ (G.sys.procs p).children) (hself : p ∉ (G.sys.procs p).children)
    (hnodup : (G.sys.procs p).children.Nodup) (hqp : q ≠ p) :
    (G'.sys.procs q).state = (G.sys.procs q).state ∧
      (G'.sys.procs q).pid = (G.sys.procs q).pid ∧
      (G'.sys.procs q).thread = (G.sys.procs q).thread ∧
      (G'.sys.procs q).vm = (G.sys.procs q).vm ∧
      (G'.sys.procs q).available = (G.sys.procs q).available := by
  obtain ⟨-, -, -, -, -, -, -, hinitrec, hkid, hrest⟩ := processDestroy_eq_some h hinit hself hnodup
  by_cases hqi : q = G.sys.init
  · subst hqi
    simp [hinitrec (Ne.symm hqp)]
  by_cases hqK : q ∈ (G.sys.procs p).children
  · simp [hkid q hqK]
  · simp [hrest q hqp hqi hqK]

/-! ## Wait -/

section Scan

variable {S : ProcessSys} {current : Nat} {pid : Int} {untraced : Bool}

/-- The child the scan reports matches the selector, reports, and gives the pid returned. -/
theorem processWaitScan_some {cs : List Nat} {m₀ m : Int} {c : Nat}
    (h : processWaitScan S current pid untraced cs m₀ = (some c, m)) :
    c ∈ cs ∧ processMatchPid S current c pid = true ∧ processWaitReports S untraced c = true ∧
      m = (S.procs c).pid := by
  induction cs generalizing m₀ with
  | nil => simp [processWaitScan] at h
  | cons d cs ih =>
    unfold processWaitScan at h
    split_ifs at h with hm hr
    · simp only [Prod.mk.injEq, Option.some.injEq] at h
      obtain ⟨rfl, rfl⟩ := h
      exact ⟨List.mem_cons_self, hm, hr, rfl⟩
    all_goals
      obtain ⟨hc, hcm, hcr, rfl⟩ := ih h
      exact ⟨List.mem_cons_of_mem d hc, hcm, hcr, rfl⟩

/-- When the scan reports nothing, no matching child reports, and `match` keeps its value
exactly when no child matches. -/
theorem processWaitScan_none {cs : List Nat} {m₀ m : Int}
    (h : processWaitScan S current pid untraced cs m₀ = (none, m)) :
    (∀ c ∈ cs, processMatchPid S current c pid = true → processWaitReports S untraced c = false) ∧
      (m = m₀ ∧ (∀ c ∈ cs, processMatchPid S current c pid = false) ∨
        ∃ c ∈ cs, processMatchPid S current c pid = true ∧ m = (S.procs c).pid) := by
  induction cs generalizing m₀ with
  | nil =>
    simp only [processWaitScan, Prod.mk.injEq] at h
    exact ⟨by simp, .inl ⟨h.2.symm, by simp⟩⟩
  | cons d cs ih =>
    unfold processWaitScan at h
    split_ifs at h with hm hr
    · simp at h
    · -- `d` matches without reporting: `match` is `d`'s pid or a later one
      obtain ⟨hrep, hlast⟩ := ih h
      refine ⟨fun c hc hcm => ?_, .inr ?_⟩
      · rcases List.mem_cons.mp hc with rfl | hc
        · simpa using hr
        · exact hrep c hc hcm
      · rcases hlast with ⟨rfl, -⟩ | ⟨c, hc, hcm, rfl⟩
        · exact ⟨d, List.mem_cons_self, hm, rfl⟩
        · exact ⟨c, List.mem_cons_of_mem d hc, hcm, rfl⟩
    · obtain ⟨hrep, hlast⟩ := ih h
      refine ⟨fun c hc hcm => ?_, ?_⟩
      · rcases List.mem_cons.mp hc with rfl | hc
        · simp [hm] at hcm
        · exact hrep c hc hcm
      · rcases hlast with ⟨rfl, hno⟩ | ⟨c, hc, hcm, rfl⟩
        · refine .inl ⟨rfl, fun c hc => ?_⟩
          rcases List.mem_cons.mp hc with rfl | hc
          · simpa using hm
          · exact hno c hc
        · exact .inr ⟨c, List.mem_cons_of_mem d hc, hcm, rfl⟩

end Scan

/-- Options outside `WNOHANG | WUNTRACED` give `-EINVAL` before the children are looked at. -/
theorem processWait_of_invalid {current : Nat} {pid options : Int}
    (hopt : options < 0 ∨ 4 ≤ options) :
    processWait G current pid options = some (G, .ret (-eInval) none) := by
  simp [processWait, hopt]

/-- With nothing reported, `process_wait` returns `-ECHILD` when no child matched, 0 with
`WNOHANG`, and sleeps otherwise. -/
theorem processWait_of_scan_none {current : Nat} {pid options m : Int}
    (hopt : ¬(options < 0 ∨ 4 ≤ options))
    (hscan : processWaitScan G.sys current pid (options.toNat &&& wUntraced ≠ 0)
      (G.sys.procs current).children 0 = (none, m)) :
    processWait G current pid options = some (G,
      if m = 0 then .ret (-eChild) none
      else if options.toNat &&& wNoHang ≠ 0 then .ret 0 none else .sleep) := by
  unfold processWait
  rw [if_neg hopt]
  dsimp only
  rw [hscan]
  dsimp only
  split_ifs <;> rfl

/-- A zombie child the scan reports is reaped, and its pid and status returned. -/
theorem processWait_of_scan_some {current c : Nat} {pid options m : Int}
    (hopt : ¬(options < 0 ∨ 4 ≤ options))
    (hscan : processWaitScan G.sys current pid (options.toNat &&& wUntraced ≠ 0)
      (G.sys.procs current).children 0 = (some c, m))
    (hne : c ≠ current) (hz : (G.sys.procs c).state = .zombie)
    (ht : (G.sys.procs c).thread = none) :
    ∃ G', processWait G current pid options = some (G', .ret m (some (G.sys.procs c).status)) := by
  unfold processWait
  rw [if_neg hopt]
  dsimp only
  rw [hscan]
  dsimp only
  rw [if_pos hz]
  simp [processFree, Function.update_apply, hne, ht]

/-- What a `process_wait` call of `current` can do: return with nothing changed; or, for the
child `c` it reports, clear `c`'s available flag and, when `c` is a zombie, reap it: `c` leaves
`current`'s children and `__process_list` and goes back to `process_cache`, and its times are
added to `current`'s. -/
theorem processWait_eq_some {current : Nat} {pid options : Int} {res : WaitResult}
    (h : processWait G current pid options = some (G', res))
    (hself : current ∉ (G.sys.procs current).children) :
    G' = G ∨
      ∃ c, c ∈ (G.sys.procs current).children ∧ processMatchPid G.sys current c pid = true ∧
        (G.sys.procs c).available = true ∧
        res = .ret (G.sys.procs c).pid (some (G.sys.procs c).status) ∧
        (((G.sys.procs c).state = .zombie ∧ (G.sys.procs c).thread = none ∧
          G'.sys.processList = (G.sys.processList.erase c).erase c ∧
          G'.sys.pidHash = G.sys.pidHash.erase c ∧
          G'.sys.processCache = c :: G.sys.processCache ∧ G'.sys.nextPid = G.sys.nextPid ∧
          G'.sys.init = G.sys.init ∧
          G'.sys.procs current =
            { G.sys.procs current with
              children := (G.sys.procs current).children.erase c
              cutime := (G.sys.procs current).cutime + (G.sys.procs c).utime
              cstime := (G.sys.procs current).cstime + (G.sys.procs c).stime } ∧
          ∀ q, q ≠ current → q ≠ c → G'.sys.procs q = G.sys.procs q) ∨
        ((G.sys.procs c).state ≠ .zombie ∧
          G'.sys = { G.sys with
            procs := Function.update G.sys.procs c
              { G.sys.procs c with available := false } })) := by
  unfold processWait at h
  by_cases hopt : options < 0 ∨ 4 ≤ options
  · rw [if_pos hopt] at h
    exact .inl (Prod.mk.inj (Option.some.inj h)).1.symm
  rw [if_neg hopt] at h
  dsimp only at h
  split at h
  · next c m hscan =>
    obtain ⟨hmem, hmatch, hrep, rfl⟩ := processWaitScan_some hscan
    have havail : (G.sys.procs c).available = true := by
      simp only [processWaitReports, Bool.and_eq_true] at hrep
      exact hrep.1.1
    have hne : c ≠ current := fun e => hself (e ▸ hmem)
    refine .inr ⟨c, hmem, hmatch, havail, ?_⟩
    by_cases hz : (G.sys.procs c).state = .zombie
    · rw [if_pos hz] at h
      obtain ⟨S₃, hfree, h⟩ := Option.map_eq_some_iff.mp h
      obtain ⟨rfl, rfl⟩ := Prod.mk.inj h
      unfold processFree at hfree
      dsimp only at hfree
      split_ifs at hfree with hth
      cases hfree
      -- `process_free`'s assertion holds: the zombie has no thread
      have hthread : (G.sys.procs c).thread = none := by
        simpa [Function.update_apply, hne] using hth
      refine ⟨rfl, .inl ⟨hz, hthread, rfl, rfl, rfl, rfl, rfl, ?_, fun q hqc hqe => ?_⟩⟩
      · simp [Ne.symm hne]
      · simp [Function.update_apply, hqc, hqe]
    · rw [if_neg hz] at h
      obtain ⟨rfl, rfl⟩ := Prod.mk.inj (Option.some.inj h)
      exact ⟨rfl, .inr ⟨hz, rfl⟩⟩
  · split_ifs at h <;> exact .inl (Prod.mk.inj (Option.some.inj h)).1.symm

/-! ## Runs -/

/-- A process that can make a system call: on `__process_list`, active, with its thread. -/
def Running (S : ProcessSys) (p : Nat) : Prop :=
  p ∈ S.processList ∧ (S.procs p).state = .active ∧ (S.procs p).thread.isSome

/-- One call that changes the process tree, by a running process, or the rest of the kernel
taking and returning pages. -/
inductive ProcStep : SignalSys → SignalSys → Prop
  | fork {G G' : SignalSys} {E : CloneEnv} {p : Nat} {shareVm : Bool} {V' : Mm.VmState}
      {r : Int} : Running G.sys p → processCopy G E p shareVm = some (G', V', r) → ProcStep G G'
  | exit {G G' : SignalSys} {p : Nat} {status : Int} :
      Running G.sys p → processDestroy G p status = some G' → ProcStep G G'
  | wait {G G' : SignalSys} {p : Nat} {pid options : Int} {res : WaitResult} :
      Running G.sys p → processWait G p pid options = some (G', res) → ProcStep G G'
  | pages {G : SignalSys} (pages : List Nat) (refCount : Nat → Nat) :
      ProcStep G { G with sys := { G.sys with freePages := pages, refCount } }

/-- The states reached from `process_init`, which makes `init_process` with `process_create` in
an empty process table. -/
inductive ProcReachable : SignalSys → Prop
  | boot {G : SignalSys} {S : ProcessSys} {init vm : Nat} :
      G.sys.processList = [] → G.sys.pidHash = [] → G.sys.nextPid = 0 →
      G.sys.processCache.Nodup → processCreate G.sys vm = some (S, init) →
      ProcReachable { G with sys := { S with init } }
  | step {G G' : SignalSys} : ProcReachable G → ProcStep G G' → ProcReachable G'

end Argentum.Proc
