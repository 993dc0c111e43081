import Argentum.Proc.Process

/-!
# Argentum.Proc.Signal

The signal queues of `kernel/process/signal.c`. A thread keeps each signal generated for it
twice: in `signal_queue`, the `struct Signal` objects in the order they came, and in
`signal_pending[SIGNAL_INDEX(signo)]`, the one object of each number, by which
`signal_generate_one` sees that a signal is already pending. The objects come from
`signal_cache` in `signal_create` and go back to it in `signal_free`; `signal_reset` (exec)
frees a whole queue and `signal_deliver_pending` frees the signal it delivers.

`signal_discard` takes a pending object out of the queue and the pending array and does not
free it. Once a pending signal is discarded, by `sigaction` setting its action to `SIG_IGN` or by
a stop signal and `SIGCONT` discarding each other, its object is in no queue and not in the
cache (`sigaction_ignore_leaks_signal`).

The state is the process table of `Argentum.Proc.Process` with the signal fields beside it:
the actions and `signal_stub` of each process, and the mask, pending array and queue of each
thread object, kept with the object when `thread_cache` hands it out again. The handler values
`SIG_DFL` and `SIG_IGN` are the pointers 0 and 1, and a `sigset_t` is newlib's word, signal
`signo` at bit `signo`. `signal_cache` is the list of its free objects; with none free it takes
a new slab, whose objects are numbered from `nextSignal`, and it panics when it cannot, so
`signal_create` never returns `NULL`. `arch_signal_prepare`, which writes the signal frame to the
user stack, is given by whether it succeeded.
-/

namespace Argentum.Proc

/-! ## Signal numbers, sets and actions -/

/-- `NSIG` of newlib's `<sys/signal.h>`. -/
def nSig : Nat := 32

/-- The signal numbers `signal.c` names, newlib's. -/
def sigHup : Nat := 1
def sigKill : Nat := 9
def sigUrg : Nat := 16
def sigStop : Nat := 17
def sigTstp : Nat := 18
def sigCont : Nat := 19
def sigChld : Nat := 20
def sigTtin : Nat := 21
def sigTtou : Nat := 22

/-- The signals `signal_action_default` terminates the process with: `SIGABRT`, `SIGBUS`,
`SIGFPE`, `SIGILL`, `SIGQUIT`, `SIGSEGV`, `SIGSYS`, `SIGTRAP`, `SIGXCPU`, `SIGXFSZ`, `SIGALRM`,
`SIGHUP`, `SIGINT`, `SIGKILL`, `SIGPIPE`, `SIGTERM`, `SIGUSR1` and `SIGUSR2`. -/
def sigTerminating : List Nat := [6, 10, 8, 4, 3, 11, 12, 5, 24, 25, 14, 1, 2, 9, 13, 15, 30, 31]

/-- `SIG_DFL` and `SIG_IGN`. -/
def sigDfl : Nat := 0
def sigIgn : Nat := 1

/-- `SA_NOCLDSTOP` and `SA_RESETHAND` of Argentum's `struct sigaction`. -/
def saNoCldStop : Nat := 0x01
def saResetHand : Nat := 0x08

/-- `SIGNAL_INDEX(signo)`. -/
def signalIndex (signo : Nat) : Nat := signo - 1

/-- `sigismember(set, signo)`. -/
def sigIsMember (set signo : Nat) : Bool := set.testBit signo

/-- `struct sigaction`: `sa_handler`, `sa_mask` and `sa_flags`. -/
structure SigAction where
  handler : Nat
  mask : Nat
  flags : Nat
  deriving DecidableEq, Repr, Inhabited

/-- The signal fields of `struct Thread`. -/
structure ThreadSignals where
  mask : Nat
  pending : Nat → Option Nat
  queue : List Nat

/-- The process table with the signal state of its processes and thread objects. -/
structure SignalSys where
  sys : ProcessSys
  /-- `signal_actions` and `signal_stub` of each process descriptor. -/
  actions : Nat → Nat → SigAction
  stub : Nat → Nat
  threads : Nat → ThreadSignals
  /-- `info.si_signo` of each `struct Signal`. -/
  signo : Nat → Nat
  signalCache : List Nat
  nextSignal : Nat

/-- The thread object `t` with its signal fields given by `f`. -/
def SignalSys.modifyThread (G : SignalSys) (t : Nat) (f : ThreadSignals → ThreadSignals) :
    SignalSys :=
  { G with threads := Function.update G.threads t (f (G.threads t)) }

/-- The descriptor `p` given by `f`. -/
def SignalSys.modifyProc (G : SignalSys) (p : Nat) (f : Process → Process) : SignalSys :=
  { G with sys := { G.sys with procs := Function.update G.sys.procs p (f (G.sys.procs p)) } }

/-! ## `signal.c` -/

/-- `signal_is_stop(signo)`. -/
def signalIsStop (signo : Nat) : Bool :=
  signo == sigStop || signo == sigTstp || signo == sigTtin || signo == sigTtou

/-- `signal_is_ignored(process, signo)`: `SIG_IGN`, or `SIG_DFL` for `SIGCHLD` and `SIGURG`. -/
def signalIsIgnored (G : SignalSys) (p signo : Nat) : Bool :=
  let action := G.actions p (signalIndex signo)
  if action.handler = sigIgn then true
  else if action.handler = sigDfl then signo == sigChld || signo == sigUrg
  else false

/-- `signal_can_be_ignored(signo)`. -/
def signalCanBeIgnored (signo : Nat) : Bool := signo != sigKill && signo != sigStop

/-- `signal_is_blocked(process, signo)`, of the process's thread `t`. -/
def signalIsBlocked (G : SignalSys) (t signo : Nat) : Bool :=
  signalCanBeIgnored signo && sigIsMember (G.threads t).mask signo

/-- `signal_create(signo, code, value)`: the object `signal_cache` hands out, numbered `signo`. -/
def signalCreate (G : SignalSys) (signo : Nat) : SignalSys × Nat :=
  match G.signalCache with
  | s :: rest => ({ G with signalCache := rest, signo := Function.update G.signo s signo }, s)
  | [] =>
    ({ G with
      nextSignal := G.nextSignal + 1
      signo := Function.update G.signo G.nextSignal signo }, G.nextSignal)

/-- `signal_free(signal)`. -/
def signalFree (G : SignalSys) (s : Nat) : SignalSys :=
  { G with signalCache := s :: G.signalCache }

/-- `signal_discard(process, signo)`: the pending signal of that number, if there is one, leaves
the pending array and the queue. -/
def signalDiscard (G : SignalSys) (p signo : Nat) : Option SignalSys := do
  -- `k_assert(process->thread != NULL)`
  let t ← (G.sys.procs p).thread
  match (G.threads t).pending (signalIndex signo) with
  | none => some G
  | some s =>
    some (G.modifyThread t fun th =>
      { th with
        pending := Function.update th.pending (signalIndex signo) none
        queue := th.queue.erase s })

/-- The end of `signal_generate_one(process, signo, code)` once the stop and continue signals
are dealt with: a signal the process ignores is dropped, any other is queued at the back of the
queue of the process's thread `t` and made pending. -/
def signalGenerateQueue (G : SignalSys) (p t signo : Nat) : SignalSys :=
  if signalIsIgnored G p signo then G
  else
    let (G, s) := signalCreate G signo
    G.modifyThread t fun th =>
      { th with
        queue := th.queue ++ [s]
        pending := Function.update th.pending (signalIndex signo) (some s) }

/-- `signal_generate_one(process, signo, code)` for a signal that is neither a stop signal nor
`SIGCONT`: the `SIGCHLD` of `_signal_state_change_to_parent` is one. -/
def signalGeneratePlain (G : SignalSys) (p signo : Nat) : Option SignalSys := do
  -- `k_assert((signo > 0) && (signo <= NSIG))`
  if ¬(0 < signo ∧ signo ≤ nSig) then none
  else
    -- `process->thread->signal_pending`: a process without a thread faults
    let t ← (G.sys.procs p).thread
    if ((G.threads t).pending (signalIndex signo)).isSome then some G
    else some (signalGenerateQueue G p t signo)

/-- `_signal_state_change_to_parent(process)`: `SIGCHLD` to the parent, unless the change is a
stop or a continue and the parent's `SIGCHLD` action has `SA_NOCLDSTOP`. -/
def signalStateChangeToParent (G : SignalSys) (p : Nat) : Option SignalSys :=
  let proc := G.sys.procs p
  match proc.parent with
  | none => some G
  | some q =>
    if q = p then some G
    else if proc.state ≠ .zombie ∧ (G.actions q (signalIndex sigChld)).flags &&& saNoCldStop ≠ 0
    then some G
    else signalGeneratePlain G q sigChld

/-- `_process_continue(process)`. -/
def processContinue (G : SignalSys) (p : Nat) : Option SignalSys :=
  let proc := G.sys.procs p
  -- `k_assert((process != NULL) && (process->vm != NULL))`
  if proc.vm.isNone then none
  else if proc.state = .stopped then
    -- `k_assert(process->flags != 0)`: its one flag is `PROCESS_STATUS_AVAILABLE`
    if !proc.available then none
    else if proc.thread.isNone then none
    else signalStateChangeToParent (G.modifyProc p fun q => { q with state := .active }) p
  else some G

/-- `_process_stop(process)`. -/
def processStop (G : SignalSys) (p : Nat) : Option SignalSys :=
  let proc := G.sys.procs p
  -- `k_assert((process != NULL) && (process->vm != NULL))`
  if proc.vm.isNone then none
  else if proc.state ≠ .stopped then
    signalStateChangeToParent (G.modifyProc p fun q => { q with state := .stopped, status := 0x7f }) p
  else some G

/-- `signal_generate_one(process, signo, code)`: a stop signal discards a pending `SIGCONT`, and
`SIGCONT` the pending stop signals and continues the process. -/
def signalGenerateOne (G : SignalSys) (p signo : Nat) : Option SignalSys := do
  if ¬(0 < signo ∧ signo ≤ nSig) then none
  else
    let t ← (G.sys.procs p).thread
    if ((G.threads t).pending (signalIndex signo)).isSome then some G
    else
      let G ←
        if signalIsStop signo then signalDiscard G p sigCont
        else if signo = sigCont then do
          let G ← signalDiscard G p sigStop
          let G ← signalDiscard G p sigTstp
          let G ← signalDiscard G p sigTtin
          let G ← signalDiscard G p sigTtou
          processContinue G p
        else some G
      some (signalGenerateQueue G p t signo)

/-- The loop of `signal_generate(pid, signo, code)` over `__process_list`, from the process
`current`. -/
def signalGenerateLoop (current : Nat) (pid : Int) (signo : Int) :
    SignalSys → List Nat → Option SignalSys
  | G, [] => some G
  | G, p :: ps =>
    if !processMatchPid G.sys current p pid || signo = 0 || (G.sys.procs p).thread.isNone then
      signalGenerateLoop current pid signo G ps
    -- `k_assert((signo > 0) && (signo <= NSIG))` of `signal_generate_one`
    else if signo < 0 then none
    else do
      let G ← signalGenerateOne G p signo.toNat
      signalGenerateLoop current pid signo G ps

/-- `signal_generate(pid, signo, code)` (`kill`): `signal_generate_one` never fails, so the
result is 0. -/
def signalGenerate (G : SignalSys) (current : Nat) (pid signo : Int) : Option (SignalSys × Int) :=
  (signalGenerateLoop current pid signo G G.sys.processList).map (·, 0)

/-- `signal_action_change(signo, stub, action, old_action)` by the process `p`: the result, and
the action written to `*old_action` when `old_action` is given. -/
def signalActionChange (G : SignalSys) (p : Nat) (signo : Int) (stub : Nat)
    (action : Option SigAction) (oldAction : Bool) : Option (SignalSys × Int × Option SigAction) :=
  if signo < 0 ∨ nSig ≤ signo then some (G, -eInval, none)
  -- `SIGKILL` and `SIGSTOP` can be neither ignored nor caught
  else if (action.any fun a => a.handler ≠ sigDfl) ∧ !signalCanBeIgnored signo.toNat then
    some (G, -eInval, none)
  -- `SIGNAL_INDEX(0)` is `-1`, and `signal_actions[-1]` is outside the array
  else if signo = 0 ∧ (oldAction ∨ action.isSome) then none
  else do
    let idx := signalIndex signo.toNat
    let old := if oldAction then some (G.actions p idx) else none
    let G ← match action with
      | none => some G
      | some a =>
        let G := { G with actions := Function.update G.actions p (Function.update (G.actions p) idx a) }
        if signalIsIgnored G p signo.toNat then signalDiscard G p signo.toNat else some G
    let G := if stub ≠ 0 then { G with stub := Function.update G.stub p stub } else G
    some (G, 0, old)

/-- Whether `signal_dequeue` passes over a queued signal: it is blocked, or the process is
stopped and it is neither `SIGKILL` nor `SIGCONT`. -/
def signalHeld (G : SignalSys) (p t signo : Nat) : Bool :=
  signalIsBlocked G t signo ||
    ((G.sys.procs p).state = .stopped && signo != sigKill && signo != sigCont)

/-- `signal_dequeue(process)` of the process `p` and its thread `t`: the first queued signal not
held back leaves the queue and the pending array. -/
def signalDequeue (G : SignalSys) (p t : Nat) : SignalSys × Option Nat :=
  match (G.threads t).queue.find? (fun s => !signalHeld G p t (G.signo s)) with
  | none => (G, none)
  | some s =>
    (G.modifyThread t fun th =>
      { th with
        queue := th.queue.erase s
        pending := Function.update th.pending (signalIndex (G.signo s)) none }, some s)

/-- `signal_action_default(current, signal, sa)`: the exit code. -/
def signalActionDefault (G : SignalSys) (p signo : Nat) : Option (SignalSys × Int) :=
  if signo ∈ sigTerminating then some (G, signo)
  -- "ignored signals should not be delivered"
  else if signo = sigChld ∨ signo = sigUrg then none
  else if signalIsStop signo then (processStop G p).map (·, 0)
  -- "The process must be already continued"
  else if signo = sigCont then if (G.sys.procs p).state = .stopped then none else some (G, 0)
  else some (G, 0)

/-- `signal_action_custom(process, signal, sa)` of the process `p` and its thread `t`, with
`prepared` whether `arch_signal_prepare` wrote the frame: the handler's mask is added to the
thread's, and `SA_RESETHAND` resets the handler. -/
def signalActionCustom (G : SignalSys) (p t idx : Nat) (sa : SigAction) (prepared : Bool) :
    SignalSys × Int :=
  if !prepared then (G, sigKill)
  else
    let G := G.modifyThread t fun th => { th with mask := th.mask ||| sa.mask }
    if sa.flags &&& saResetHand ≠ 0 then
      ({ G with
        actions := Function.update G.actions p
          (Function.update (G.actions p) idx { sa with handler := sigDfl }) }, 0)
    else (G, 0)

/-- `signal_deliver_pending()` of the process `p`: the signal is freed and the exit code comes
back; the caller goes on to `process_destroy` when it is not 0. -/
def signalDeliverPending (G : SignalSys) (p : Nat) (prepared : Bool) :
    Option (SignalSys × Int) := do
  let t ← (G.sys.procs p).thread
  match signalDequeue G p t with
  | (G, none) => some (G, 0)
  | (G, some s) =>
    let idx := signalIndex (G.signo s)
    let sa := G.actions p idx
    let (G, code) ←
      if sa.handler = sigDfl then signalActionDefault G p (G.signo s)
      -- "ignored signals should not be delivered"
      else if sa.handler = sigIgn then none
      else some (signalActionCustom G p t idx sa prepared)
    some (signalFree G s, code)

/-- `signal_reset(process)` (exec): every handler back to `SIG_DFL`, the mask emptied, nothing
pending, and the queued signals freed from the front. -/
def signalReset (G : SignalSys) (p : Nat) : Option SignalSys := do
  -- `k_assert(process->thread != NULL)`
  let t ← (G.sys.procs p).thread
  let queue := (G.threads t).queue
  let G := { G with
    actions := Function.update G.actions p fun i =>
      if i < nSig then { G.actions p i with handler := sigDfl } else G.actions p i }
  let G := G.modifyThread t fun th =>
    { th with
      mask := 0
      pending := fun i => if i < nSig then none else th.pending i
      queue := [] }
  some (queue.foldl signalFree G)

/-- `signal_clone(parent, child)` (fork): the child gets the parent's stub, mask and actions and
nothing pending. Its queue is the one its thread object holds. -/
def signalClone (G : SignalSys) (parent child : Nat) : Option SignalSys := do
  -- `k_assert(parent->thread != NULL)`
  let pt ← (G.sys.procs parent).thread
  let ct ← (G.sys.procs child).thread
  let G := { G with
    stub := Function.update G.stub child (G.stub parent)
    actions := Function.update G.actions child fun i =>
      if i < nSig then G.actions parent i else G.actions child i }
  some (G.modifyThread ct fun th =>
    { th with
      mask := (G.threads pt).mask
      pending := fun i => if i < nSig then none else th.pending i })

/-! ## Where the objects are -/

namespace SignalSys

variable {G : SignalSys}

@[simp] theorem modifyThread_threads_self (G : SignalSys) (t : Nat)
    (f : ThreadSignals → ThreadSignals) : (G.modifyThread t f).threads t = f (G.threads t) := by
  simp [modifyThread]

@[simp] theorem modifyThread_threads_of_ne {t t' : Nat} (f : ThreadSignals → ThreadSignals)
    (h : t' ≠ t) : (G.modifyThread t f).threads t' = G.threads t' := by
  simp [modifyThread, h]

@[simp] theorem modifyThread_sys (t : Nat) (f : ThreadSignals → ThreadSignals) :
    (G.modifyThread t f).sys = G.sys := rfl

@[simp] theorem modifyThread_signalCache (t : Nat) (f : ThreadSignals → ThreadSignals) :
    (G.modifyThread t f).signalCache = G.signalCache := rfl

@[simp] theorem modifyThread_nextSignal (t : Nat) (f : ThreadSignals → ThreadSignals) :
    (G.modifyThread t f).nextSignal = G.nextSignal := rfl

@[simp] theorem modifyThread_actions (t : Nat) (f : ThreadSignals → ThreadSignals) :
    (G.modifyThread t f).actions = G.actions := rfl

/-- An object is free in `signal_cache`: on its free list, or in a slab the pool has not taken
yet. -/
def InCache (G : SignalSys) (s : Nat) : Prop := s ∈ G.signalCache ∨ G.nextSignal ≤ s

/-- The object `s` is in exactly one place: free in the cache and in no queue, or in the queue
of exactly one thread. -/
def Placed (G : SignalSys) (s : Nat) : Prop :=
  (G.InCache s ∧ ∀ t, s ∉ (G.threads t).queue) ∨
    (¬ G.InCache s ∧ ∃! t, s ∈ (G.threads t).queue)

/-- Where an object is depends only on the cache and the queues. -/
theorem Placed.congr {G' : SignalSys} {s : Nat} (h : G.Placed s)
    (hc : G'.InCache s ↔ G.InCache s)
    (hq : ∀ t, s ∈ (G'.threads t).queue ↔ s ∈ (G.threads t).queue) : G'.Placed s := by
  unfold Placed
  simp only [hc, hq]
  exact h

end SignalSys

open SignalSys

/-- Every `struct Signal` is in exactly one place, the queue of one thread or `signal_cache`,
and at most once in either list. -/
structure SignalConserved (G : SignalSys) : Prop where
  cache_nodup : G.signalCache.Nodup
  cache_lt : ∀ s ∈ G.signalCache, s < G.nextSignal
  queue_nodup : ∀ t, (G.threads t).queue.Nodup
  placed : ∀ s, G.Placed s

variable {G : SignalSys}

theorem SignalConserved.not_mem_queue (hG : SignalConserved G) {s : Nat} (hs : G.InCache s)
    (t : Nat) : s ∉ (G.threads t).queue := by
  rcases hG.placed s with ⟨-, hq⟩ | ⟨hc, -⟩
  · exact hq t
  · exact absurd hs hc

/-! ## `signal_create` -/

@[simp] theorem signalCreate_threads (signo : Nat) :
    (signalCreate G signo).1.threads = G.threads := by
  unfold signalCreate
  split <;> rfl

@[simp] theorem signalCreate_sys (signo : Nat) : (signalCreate G signo).1.sys = G.sys := by
  unfold signalCreate
  split <;> rfl

@[simp] theorem signalCreate_actions (signo : Nat) :
    (signalCreate G signo).1.actions = G.actions := by
  unfold signalCreate
  split <;> rfl

/-- The object `signal_create` hands out was free in the cache. -/
theorem signalCreate_inCache (signo : Nat) : G.InCache (signalCreate G signo).2 := by
  unfold signalCreate InCache
  split
  · next s rest h => exact .inl (by simp [h])
  · exact .inr (Nat.le_refl _)

/-- After `signal_create` the cache holds what it held but the object handed out. -/
theorem signalCreate_inCache_iff (hG : SignalConserved G) (signo o : Nat) :
    (signalCreate G signo).1.InCache o ↔ G.InCache o ∧ o ≠ (signalCreate G signo).2 := by
  have hnodup := hG.cache_nodup
  have hlt := hG.cache_lt
  unfold signalCreate InCache
  split
  · next s rest h =>
    rw [h] at hnodup hlt
    have hs := hlt s (by simp)
    have hrest := (List.nodup_cons.mp hnodup).1
    simp only [h, List.mem_cons]
    constructor
    · rintro (ho | ho)
      · exact ⟨.inl (.inr ho), fun e => hrest (e ▸ ho)⟩
      · exact ⟨.inr ho, by omega⟩
    · rintro ⟨(ho | ho) | ho, hne⟩
      · exact absurd ho hne
      · exact .inl ho
      · exact .inr ho
  · next h =>
    simp only [h, List.not_mem_nil, false_or]
    omega

theorem signalCreate_conserved_cache (hG : SignalConserved G) (signo : Nat) :
    (signalCreate G signo).1.signalCache.Nodup ∧
      ∀ s ∈ (signalCreate G signo).1.signalCache, s < (signalCreate G signo).1.nextSignal := by
  have hnodup := hG.cache_nodup
  have hlt := hG.cache_lt
  unfold signalCreate
  split
  · next s rest h =>
    rw [h] at hnodup hlt
    exact ⟨(List.nodup_cons.mp hnodup).2, fun o ho => hlt o (by simp [ho])⟩
  · exact ⟨hnodup, fun o ho => Nat.lt_succ_of_lt (hlt o ho)⟩

/-! ## Queueing a signal -/

/-- A signal the process does not ignore is queued: the object `signal_create` hands out goes
to the back of the queue and into the pending array. -/
theorem signalGenerateQueue_of_not_ignored {p t signo : Nat}
    (h : signalIsIgnored G p signo = false) :
    signalGenerateQueue G p t signo = (signalCreate G signo).1.modifyThread t fun th =>
      { th with
        queue := th.queue ++ [(signalCreate G signo).2]
        pending := Function.update th.pending (signalIndex signo)
          (some (signalCreate G signo).2) } := by
  simp only [signalGenerateQueue, h]
  rfl

/-- Queueing the object `signal_create` hands out at the back of one thread's queue keeps every
object in exactly one place. -/
theorem SignalConserved.generateQueue (hG : SignalConserved G) (p t signo : Nat) :
    SignalConserved (signalGenerateQueue G p t signo) := by
  cases hi : signalIsIgnored G p signo
  case true => simpa [signalGenerateQueue, hi] using hG
  rw [signalGenerateQueue_of_not_ignored hi]
  set s := (signalCreate G signo).2 with hs
  have hfree : ∀ t', s ∉ (G.threads t').queue := hG.not_mem_queue (signalCreate_inCache signo)
  have hcache := signalCreate_conserved_cache hG signo
  -- only the queue of `t` changes, by the new object
  have hmem : ∀ o t', o ∈ (((signalCreate G signo).1.modifyThread t fun th =>
      { th with
        queue := th.queue ++ [s]
        pending := Function.update th.pending (signalIndex signo) (some s) }).threads t').queue ↔
      o ∈ (G.threads t').queue ∨ (o = s ∧ t' = t) := by
    intro o t'
    by_cases ht : t' = t
    · subst ht
      simp
    · simp [ht]
  refine ⟨hcache.1, hcache.2, fun t' => ?_, fun o => ?_⟩
  · by_cases ht : t' = t
    · subst ht
      simpa [List.nodup_append] using
        ⟨hG.queue_nodup t', fun a ha h => hfree t' (h ▸ ha)⟩
    · simpa [ht] using hG.queue_nodup t'
  · by_cases ho : o = s
    · subst ho
      refine .inr ⟨fun h => ((signalCreate_inCache_iff hG signo _).mp h).2 rfl, t, ?_, ?_⟩
      · exact (hmem _ t).mpr (.inr ⟨rfl, rfl⟩)
      · intro t' ht'
        rcases (hmem _ t').mp ht' with h | ⟨-, h⟩
        · exact absurd h (hfree t')
        · exact h
    · refine (hG.placed o).congr ?_ fun t' => ?_
      · simp only [InCache, modifyThread_signalCache, modifyThread_nextSignal]
        exact (signalCreate_inCache_iff hG signo o).trans (and_iff_left ho)
      · rw [hmem]
        simp [ho]

/-- `signal_generate_one` of a signal that is neither a stop signal nor `SIGCONT` is the plain
case. -/
theorem signalGenerateOne_plain {p signo : Nat} (hstop : signalIsStop signo = false)
    (hcont : signo ≠ sigCont) : signalGenerateOne G p signo = signalGeneratePlain G p signo := by
  unfold signalGenerateOne signalGeneratePlain
  simp [hstop, hcont]

/-! ## What the signal functions leave of the process table -/

theorem signalGenerateQueue_sys (p t signo : Nat) :
    (signalGenerateQueue G p t signo).sys = G.sys := by
  cases hi : signalIsIgnored G p signo
  case true => simp [signalGenerateQueue, hi]
  rw [signalGenerateQueue_of_not_ignored hi]
  simp

theorem signalGeneratePlain_sys {G' : SignalSys} {p signo : Nat}
    (h : signalGeneratePlain G p signo = some G') : G'.sys = G.sys := by
  unfold signalGeneratePlain at h
  split at h
  · cases h
  · obtain ⟨t, -, h⟩ := Option.bind_eq_some_iff.mp h
    split at h
    · cases h
      rfl
    · cases h
      exact signalGenerateQueue_sys p t signo

/-- `_signal_state_change_to_parent` sends `SIGCHLD` and changes no process. -/
theorem signalStateChangeToParent_sys {G' : SignalSys} {p : Nat}
    (h : signalStateChangeToParent G p = some G') : G'.sys = G.sys := by
  unfold signalStateChangeToParent at h
  dsimp only at h
  split at h
  · cases h
    rfl
  · split_ifs at h
    · cases h
      rfl
    · cases h
      rfl
    · exact signalGeneratePlain_sys h

theorem signalClone_sys {G' : SignalSys} {parent child : Nat}
    (h : signalClone G parent child = some G') : G'.sys = G.sys := by
  unfold signalClone at h
  obtain ⟨pt, -, h⟩ := Option.bind_eq_some_iff.mp h
  obtain ⟨ct, -, h⟩ := Option.bind_eq_some_iff.mp h
  cases h
  rfl

/-! ## Discarding a pending signal -/

/-- `sigaction` setting the handler of a pending signal to `SIG_IGN` takes its object out of
the thread's queue and the pending array. -/
theorem signalActionChange_ignore {p t s : Nat} {signo : Nat} (ht : (G.sys.procs p).thread = some t)
    (hrange : 0 < signo ∧ signo < nSig) (hcan : signalCanBeIgnored signo = true)
    (hs : (G.threads t).pending (signalIndex signo) = some s) (act : SigAction)
    (hact : act.handler = sigIgn) :
    signalActionChange G p signo 0 (some act) false =
      some (({ G with
        actions := Function.update G.actions p
          (Function.update (G.actions p) (signalIndex signo) act) }).modifyThread t fun th =>
        { th with
          pending := Function.update th.pending (signalIndex signo) none
          queue := th.queue.erase s }, 0, none) := by
  have hsig : ¬((signo : Int) < 0 ∨ (nSig : Int) ≤ signo) := by
    unfold nSig at *
    omega
  have hign : signalIsIgnored { G with
      actions := Function.update G.actions p
        (Function.update (G.actions p) (signalIndex signo) act) } p signo = true := by
    simp [signalIsIgnored, hact]
  unfold signalActionChange
  rw [if_neg hsig]
  simp [hcan, hign, signalDiscard, ht, hs, show signo ≠ 0 by omega]

/-! ## The object a discard leaves behind -/

/-- From any state where every `struct Signal` is in exactly one place, a process that does not
ignore a signal and has none of that number pending, sent that signal and then setting its
action to `SIG_IGN`: the signal is queued and every object is still in one place; the
`sigaction` succeeds and the signal's object is then in no queue and not in the cache. -/
theorem sigaction_ignore_leaks_signal (hG : SignalConserved G) {p t signo : Nat}
    (ht : (G.sys.procs p).thread = some t) (hrange : 0 < signo ∧ signo < nSig)
    (hstop : signalIsStop signo = false) (hcont : signo ≠ sigCont)
    (hcan : signalCanBeIgnored signo = true)
    (hnot : (G.threads t).pending (signalIndex signo) = none)
    (hign : signalIsIgnored G p signo = false) (act : SigAction) (hact : act.handler = sigIgn) :
    ∃ G₁ G₂, signalGenerateOne G p signo = some G₁ ∧ SignalConserved G₁ ∧
      signalActionChange G₁ p signo 0 (some act) false = some (G₂, 0, none) ∧
      ¬ SignalConserved G₂ := by
  set s := (signalCreate G signo).2 with hs
  set G₁ := signalGenerateQueue G p t signo with hG₁
  have hgen : signalGenerateOne G p signo = some G₁ := by
    rw [signalGenerateOne_plain hstop hcont, hG₁]
    simp [signalGeneratePlain, ht, hnot, show 0 < signo ∧ signo ≤ nSig by unfold nSig at *; omega]
  have hc₁ : SignalConserved G₁ := hG.generateQueue p t signo
  -- what the generate step left: the new object at the back of the queue, and pending
  have hq₁ : ∀ t', (G₁.threads t').queue = if t' = t then (G.threads t).queue ++ [s]
      else (G.threads t').queue := by
    intro t'
    rw [hG₁, signalGenerateQueue_of_not_ignored hign]
    by_cases h : t' = t
    · subst h
      simp [hs]
    · simp [h]
  have hp₁ : (G₁.threads t).pending (signalIndex signo) = some s := by
    rw [hG₁, signalGenerateQueue_of_not_ignored hign]
    simp [hs]
  have hsys : G₁.sys = G.sys := by
    rw [hG₁, signalGenerateQueue_of_not_ignored hign]
    simp
  have hfree : ∀ t', s ∉ (G.threads t').queue := hG.not_mem_queue (signalCreate_inCache signo)
  have hout : ¬ G₁.InCache s := by
    intro h
    rw [hG₁, signalGenerateQueue_of_not_ignored hign] at h
    exact ((signalCreate_inCache_iff hG signo s).mp h).2 rfl
  refine ⟨G₁, _, hgen, hc₁, signalActionChange_ignore (by rw [hsys]; exact ht) hrange hcan hp₁
    act hact, fun hc₂ => ?_⟩
  -- the object is in no queue and not in the cache
  rcases hc₂.placed s with ⟨hin, -⟩ | ⟨-, t', ht', -⟩
  · exact hout hin
  · by_cases h : t' = t
    · subst h
      have hnd := hc₁.queue_nodup t'
      rw [hq₁, if_pos rfl] at hnd
      simp only [modifyThread_threads_self] at ht'
      rw [hq₁, if_pos rfl, List.erase_append_right _ (hfree t'), List.erase_cons_head,
        List.append_nil] at ht'
      exact hfree t' ht'
    · simp only [modifyThread_threads_of_ne _ h, hq₁, if_neg h] at ht'
      exact hfree t' ht'

/-- `init` alone, descriptor 0 with thread object 0, before any signal: `SIGUSR1` sent to it, and
then ignored. -/
theorem sigaction_ignore_leaks_signal_usr1 :
    ∃ G₁ G₂, signalGenerateOne ⟨⟨fun _ => { (default : Process) with pid := 1, thread := some 0 },
        [0], [0], [], [], [], fun _ => 0, 1, 0⟩, fun _ _ => default, fun _ => 0,
        fun _ => ⟨0, fun _ => none, []⟩, fun _ => 0, [], 0⟩ 0 30 = some G₁ ∧
      SignalConserved G₁ ∧
      signalActionChange G₁ 0 30 0 (some ⟨sigIgn, 0, 0⟩) false = some (G₂, 0, none) ∧
      ¬ SignalConserved G₂ :=
  sigaction_ignore_leaks_signal
    ⟨List.nodup_nil, fun _ h => absurd h List.not_mem_nil, fun _ => List.nodup_nil,
      fun s => .inl ⟨.inr (Nat.zero_le s), fun _ => List.not_mem_nil⟩⟩
    rfl (by decide) (by decide) (by decide) (by decide) rfl (by decide) _ rfl

end Argentum.Proc
